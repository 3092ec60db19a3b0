import Marginalia.Language
import Marginalia.Naming.Words

/-!
# Names with a fixed meaning

Special methods and entry points of each language, library functions of C, the roles that class
names end in, and the words by which a name is taken for a mapping, a counter or an arithmetic
function.
-/

namespace Marginalia.Naming

def pythonNames : List (Text × Text) :=
  [("__init__", "Set up the initial state and properties of this object"),
   ("__str__", "Define how this object appears when converted to string"),
   ("__repr__", "Define the official string representation for debugging"),
   ("__call__", "Make this object callable like a function"),
   ("__enter__", "Set up resources when entering a 'with' block"),
   ("__exit__", "Clean up resources when exiting a 'with' block"),
   ("__len__", "Return the length/size of this object"),
   ("__getitem__", "Enable accessing items using bracket notation [index]"),
   ("__setitem__", "Enable setting items using bracket notation [index] = value"),
   ("__iter__", "Make this object iterable in loops"),
   ("__next__", "Get the next item in iteration"),
   ("__eq__", "Define how to check if two objects are equal"),
   ("__lt__", "Define how to compare if this object is less than another"),
   ("__gt__", "Define how to compare if this object is greater than another"),
   ("__add__", "Define what happens when using the + operator"),
   ("__sub__", "Define what happens when using the - operator"),
   ("__mul__", "Define what happens when using the * operator"),
   ("__truediv__", "Define what happens when using the / operator"),
   ("__div__", "Define what happens when using the / operator"),
   ("main", "Program starts here")]

def javascriptNames : List (Text × Text) :=
  [("constructor", "Initialize new instance with provided parameters"),
   ("render", "Generate and return the visual representation of this component"),
   ("componentDidMount", "Execute code after component is added to the page"),
   ("componentWillUnmount", "Clean up before component is removed from the page"),
   ("useState", "Create a state variable that triggers re-render when changed"),
   ("useEffect", "Run side effects after render or when dependencies change"),
   ("main", "Program starts here")]

def cNames : List (Text × Text) :=
  [("main", "Program starts execution here - entry point"),
   ("malloc", "Allocate memory dynamically on the heap"),
   ("free", "Release previously allocated memory to prevent leaks"),
   ("printf", "Print formatted output to console"),
   ("scanf", "Read formatted input from user")]

/-- The names of a language that have a description of their own. -/
def specialNames : Language → List (Text × Text)
  | .python => pythonNames
  | .javascript => javascriptNames
  | .c => cNames

/-- The description of a special method or entry point. -/
def specialName? (l : Language) (name : Text) : Option Text := (specialNames l).lookup name

/-- The endings of class names and the roles they tell. -/
def classRoles : List (List Text × Text) :=
  [(["manager"], "a manager"),
   (["handler"], "a handler"),
   (["controller"], "a controller"),
   (["service"], "a service"),
   (["model"], "a data model"),
   (["view"], "a view"),
   (["factory"], "a factory"),
   (["builder"], "a builder"),
   (["adapter"], "an adapter"),
   (["exception", "error"], "an exception"),
   (["interface"], "an interface")]

/-- The role that a class name ends in. -/
def classRole? (name : Text) : Option Text :=
  (classRoles.find? fun (endings, _) => endings.any (Text.lower name).endsWith).map (·.2)

/-- Library functions and what a call of each does. -/
def libraryCalls : List (Text × Text) :=
  [("malloc", "Allocate memory"),
   ("calloc", "Allocate and zero memory"),
   ("realloc", "Reallocate memory block"),
   ("free", "Free allocated memory"),
   ("memcpy", "Copy memory block"),
   ("memset", "Set memory block"),
   ("memmove", "Move memory block"),
   ("memcmp", "Compare memory blocks"),
   ("strncpy", "Copy string"),
   ("strcpy", "Copy string"),
   ("strncat", "Concatenate strings"),
   ("strcat", "Concatenate strings"),
   ("strncmp", "Compare strings"),
   ("strcmp", "Compare strings"),
   ("strlen", "Get string length"),
   ("fopen", "Open file"),
   ("fclose", "Close file"),
   ("fread", "Read from file"),
   ("fwrite", "Write to file"),
   ("fprintf", "Formatted write to file"),
   ("fscanf", "Formatted read from file"),
   ("printf", "Print formatted output"),
   ("scanf", "Read formatted input"),
   ("puts", "Print string with newline"),
   ("gets", "Read string (unsafe)")]

/-- What a call of a library function does. Calls that take or give back memory show their
argument. -/
def libraryCall? (function : Text) (argument : Option Text) : Option Text :=
  (libraryCalls.lookup function).map fun base =>
    match argument with
    | some arg =>
      if (["malloc", "calloc", "free"] : List Text).contains function && !arg.isEmpty then
        base ++ ": " ++ function ++ "(" ++ arg ++ ")"
      else base
    | none => base

/-- Whether a name suggests a mapping from keys to values. -/
def isMappingName (name : Text) : Bool :=
  mentions ["dict", "dictionary", "map", "mapping", "lookup", "registry", "table", "mydict"] name

/-- Whether a name suggests a number that is counted up or down. -/
def isCounterName (name : Text) : Bool :=
  (["i", "j", "k", "n"] : List Text).contains name
    || mentions
      ["count", "counter", "total", "num", "score", "tally", "index", "idx", "attempts"] name

/-- Whether the name of a function suggests that its arguments are numbers. -/
def isArithmeticName (name : Text) : Bool :=
  mentions ["add", "subtract", "multiply", "divide", "sum", "total", "average", "calculate",
    "compute", "square", "sqrt", "power"] name

end Marginalia.Naming
