import Evenscribe.Text

/-!
# Compile-time parameters
-/

namespace Evenscribe

/-- `BUFFER_SIZE`. -/
def bufferSize : ℕ := 1000

/-- `TABLE_NAME`. -/
def tableName : Text := text "logs"

/-- `CONN_THREADS`. -/
def connThreads : ℕ := 2

/-- `READ_THREADS`. -/
def readThreads : ℕ := 4

/-- `WRITE_THREADS`. -/
def writeThreads : ℕ := 4

/-- `SAVE_THRESHOLD`. -/
def saveThreshold : ℕ := 1000

end Evenscribe
