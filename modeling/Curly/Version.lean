/-!
# Name and version
-/

namespace Curly

/-- The name of the language. -/
def languageName : String := "Cool"

/-- The name of the command. -/
def commandName : String := "cool"

/-- The version of the language and of the command. -/
def version : String := "0.1.0"

end Curly
