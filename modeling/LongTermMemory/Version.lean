/-!
The versions of the library and of the layout of its store.
-/

namespace LongTermMemory

def version : String := "0.1.0"

/-- The name of the program with its version. -/
def banner : String := "ltm " ++ version

def storeVersion : Nat := 2

end LongTermMemory
