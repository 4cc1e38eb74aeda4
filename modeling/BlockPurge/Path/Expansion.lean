import BlockPurge.Environment
import BlockPurge.Text.Alphanumeric

/-!
# Expanding paths

A path as a user writes it may name variables and the home folder. Variables stand behind a dollar
sign, bare or in braces, there with a text to use in their absence; two dollar signs stand for one.
A text is first cut into parts, which never fails, and then each part is looked up. The texts that
come out are not expanded again. A tilde that the user wrote at the start stands for the home
folder.
-/
namespace BlockPurge.Path

inductive Part where
  | literal (chars : List Char)
  | variable (name : List Char) (substitute : Option (List Char))
  deriving DecidableEq, Repr

def isNameChar (c : Char) : Bool :=
  Text.isAlphanumeric c || c == '_'

/-- The name and the substitute that the text in braces gives: a colon and a hyphen part them,
unless nothing stands before them. -/
def bracedParts : List Char → List Char × Option (List Char)
  | [] => ([], none)
  | ':' :: '-' :: rest => ([], some rest)
  | c :: rest =>
    let (name, substitute) := bracedParts rest
    (c :: name, substitute)

def braced (inner : List Char) : Part :=
  if [':', '-'].isPrefixOf inner then .variable inner none
  else .variable (bracedParts inner).1 (bracedParts inner).2

/-- A text up to its first closing brace, and what follows the brace. -/
def splitBrace : List Char → Option (List Char × List Char)
  | [] => none
  | c :: rest =>
    if c = '\x7d' then some ([], rest)
    else (splitBrace rest).map fun (inner, after) => (c :: inner, after)

/-- The first part of a text that starts with a dollar sign and `rest`, and what follows it. -/
def dollarPart (rest : List Char) : Part × List Char :=
  match rest with
  | [] => (.literal ['$'], [])
  | c :: more =>
    if c = '$' then (.literal ['$'], more)
    else if c = '\x7b' then
      match splitBrace more with
      | some (inner, after) => (braced inner, after)
      | none => (.literal ['$', c], more)
    else if isNameChar c then
      (.variable (rest.takeWhile isNameChar) none, rest.dropWhile isNameChar)
    else (.literal ['$'], rest)

theorem length_of_splitBrace {s inner after : List Char} (h : splitBrace s = some (inner, after)) :
    after.length ≤ s.length := by
  induction s generalizing inner after with
  | nil => simp [splitBrace] at h
  | cons c rest ih =>
    simp only [splitBrace] at h
    split at h
    · cases h
      simp
    · cases hr : splitBrace rest with
      | none => simp [hr] at h
      | some found =>
        simp only [hr, Option.map_some, Option.some.injEq, Prod.mk.injEq] at h
        have := @ih found.1 found.2 hr
        rw [← h.2]
        simp only [List.length_cons]
        omega

theorem length_dollarPart_le (rest : List Char) : (dollarPart rest).2.length ≤ rest.length := by
  unfold dollarPart
  split
  · simp
  · rename_i c more
    split
    · simp
    · split
      · split
        · rename_i h
          have := length_of_splitBrace h
          simp only [List.length_cons]
          omega
        · simp
      · split
        · exact (List.dropWhile_sublist _).length_le
        · simp

def parts : List Char → List Part
  | [] => []
  | c :: rest =>
    if c = '$' then (dollarPart rest).1 :: parts (dollarPart rest).2
    else .literal [c] :: parts rest
  termination_by s => s.length
  decreasing_by
    · have := length_dollarPart_le rest
      simp only [List.length_cons]
      omega
    · simp

/-- Why a path has no expansion: a variable without a text and without a substitute. -/
structure ExpansionFault where
  name : String
  cause : Environment.Fault
  deriving DecidableEq, Repr

def ExpansionFault.chain (fault : ExpansionFault) : List String :=
  ["error looking key '" ++ fault.name ++ "' up: " ++ fault.cause.message, fault.cause.message]

def Part.expand (env : Environment) : Part → Except ExpansionFault (List Char)
  | .literal chars => .ok chars
  | .variable name substitute =>
    match env.text (String.ofList name), substitute with
    | .ok text, _ => .ok text.toList
    | .error _, some substitute => .ok substitute
    | .error cause, none => .error ⟨String.ofList name, cause⟩

def expandParts (env : Environment) : List Part → Except ExpansionFault (List Char)
  | [] => .ok []
  | part :: rest =>
    match part.expand env with
    | .error fault => .error fault
    | .ok text =>
      match expandParts env rest with
      | .error fault => .error fault
      | .ok more => .ok (text ++ more)

/-- A path with the home folder for a tilde that stands alone or before a slash. Without a home
folder the tilde stays. -/
def expandHome (env : Environment) (path : List Char) : List Char :=
  match path with
  | '~' :: rest =>
    if rest.isEmpty ∨ rest.head? = some '/' then
      match env.home? with
      | some home => home.toList ++ rest
      | none => path
    else path
  | _ => path

def expand (env : Environment) (written : String) : Except ExpansionFault String :=
  match expandParts env (parts written.toList) with
  | .error fault => .error fault
  | .ok text =>
    .ok (String.ofList (if written.toList.head? = some '~' then expandHome env text else text))

end BlockPurge.Path
