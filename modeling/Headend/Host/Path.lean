/-!
# Paths

A path is a text. Its names stand between slashes, and it leads from the root or from the working
directory. Joining puts one slash between two parts where none stands.
-/

namespace Headend.Host

/-- The names of a path, from the first to the last. -/
def pathNames (path : String) : List String :=
  (path.toList.splitOn '/').filterMap fun cs => if cs = [] then none else some (String.ofList cs)

/-- Whether a path leads from the root. -/
def isAbsolute (path : String) : Bool := path.toList.head? == some '/'

/-- Whether a path can only be meant for a directory, since it ends with a slash. -/
def endsWithSlash (path : String) : Bool := path.toList.getLast? == some '/'

/-- The path of an entry of a directory. -/
def joinPath (directory name : String) : String :=
  if directory = "" || endsWithSlash directory then directory ++ name
  else directory ++ "/" ++ name

end Headend.Host
