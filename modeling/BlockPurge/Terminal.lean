import BlockPurge.Environment

/-!
# Styles on a terminal

Whether an output shows the styles of a text. The environment comes first: it may forbid them, or
ask for them whatever the output is. Otherwise only a terminal shows them, and only one that is
known to be able to.
-/
namespace BlockPurge.Terminal

def isSet (env : Environment) (name : String) : Bool :=
  (env.value? name).isSome

def isFilled (env : Environment) (name : String) : Bool :=
  (env.value? name).any fun value => !value.isEmpty

def hasValue (env : Environment) (name value : String) : Bool :=
  env.value? name == some (Text.encode value)

def forbidden : String := "NO_COLOR"

/-- The variable that asks for styles on every output if it is not empty, whatever its value says.
-/
def forced : String := "CLICOLOR_FORCE"

/-- The variable that forbids styles if it is zero, and otherwise vouches for a terminal. -/
def wanted : String := "CLICOLOR"

def kind : String := "TERM"

/-- The variable that tells of a session nobody sits at, whose log shows styles. -/
def automated : String := "CI"

/-- Whether the terminal of an environment is known to show styles. -/
def isCapable (env : Environment) : Bool :=
  (isSet env kind && !hasValue env kind "dumb") || isSet env wanted || isSet env automated

def showsStyles (env : Environment) (terminal : Bool) : Bool :=
  if isFilled env forbidden then false
  else if isFilled env forced then true
  else if hasValue env wanted "0" then false
  else terminal && isCapable env

end BlockPurge.Terminal
