import PackageCoupling.Fault
import PackageCoupling.Text.Blank
import PackageCoupling.Text.Lowercase

namespace PackageCoupling

-- Types that belong to one package although their names are written without it.
@[ext]
structure BuiltinTable where
  package : String
  types : List String
deriving DecidableEq, Repr

def standardTypes : BuiltinTable where
  package := "+standard"
  types := [
    "stdClass", "Closure", "Generator", "Traversable", "Iterator", "IteratorAggregate", "ArrayAccess",
    "Countable", "Serializable", "Stringable", "Throwable", "Exception", "ErrorException", "Error",
    "TypeError", "DateTime", "DateTimeImmutable", "DateTimeInterface", "DateInterval", "Reflection",
    "ReflectionClass", "ReflectionMethod", "ReflectionProperty"]

def splTypes : BuiltinTable where
  package := "+spl"
  types := [
    "ArrayObject", "ArrayIterator", "SplObjectStorage", "SplStack", "SplQueue", "SplFixedArray",
    "SplHeap", "SplPriorityQueue", "SplSubject", "SplObserver", "LogicException", "RuntimeException",
    "InvalidArgumentException", "DomainException", "LengthException", "OutOfRangeException",
    "OutOfBoundsException", "OverflowException", "UnderflowException", "RangeException",
    "UnexpectedValueException", "BadFunctionCallException", "BadMethodCallException"]

@[ext]
structure Config where
  -- The package of names that are neither qualified nor built in.
  defaultPackage : String := "+global"
  separators : List String := ["\\", "."]
  builtins : List BuiltinTable := [standardTypes, splTypes]
deriving DecidableEq, Repr, Inhabited

namespace Config

def fault? (config : Config) : Option ConfigFault :=
  if Text.isBlank config.defaultPackage then some .blankDefaultPackage
  else if config.separators.any String.isEmpty then some .emptySeparator
  else if config.builtins.any (·.package.isEmpty) then some .unnamedBuiltins
  else none

def validate (config : Config) : Except Fault Unit :=
  match config.fault? with
  | none       => .ok ()
  | some cause => .error (.invalidConfig cause)

-- The environment may name another default package.
def overriddenBy (config : Config) : Option String → Config
  | none      => config
  | some name => if name.isEmpty then config else { config with defaultPackage := name }

-- The package of a built-in type, given its name in lowercase. Of several tables the first one counts.
def builtinPackage? (config : Config) (key : String) : Option String :=
  (config.builtins.find? fun table => table.types.any (Text.lowercase · == key)).map (·.package)

def builtinIndex (config : Config) : List (String × String) :=
  let keys := (config.builtins.flatMap fun table => table.types.map Text.lowercase).eraseDups
  let entries := keys.filterMap fun key => (config.builtinPackage? key).map (key, ·)
  entries.mergeSort fun a b => decide (a.1 ≤ b.1)

end Config
end PackageCoupling
