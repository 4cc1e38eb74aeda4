import BlockPurge.Arguments
import BlockPurge.Text.Lines
import BlockPurge.Text.Styled

/-!
# Help

What is printed about the command line itself. Every option has an entry; the short form prints an
entry on one line, the full form prints what it says below it and tells the values apart. Titles and
what is typed as it stands are set off by their style.
-/
namespace BlockPurge.Help

open Text (Styled)
open Text.Styled (plain strong title padRight)

def programName : String := "vblkpurge"

def version : String := programName ++ " 0.1.0\n"

structure Entry where
  letter : Option Char
  name : String
  /-- The name of its value, if it has one. -/
  value : Option String
  short : String
  full : String
  /-- The values it takes, with what each means, if they are fixed. -/
  choices : List (String × String)

def plainEntry (letter : Option Char) (name : String) (value : Option String) (text : String) :
    Entry :=
  ⟨letter, name, value, text, text, []⟩

def meaning : Persistence → String
  | .perBlock => "After every erased block, so a crash loses at most the in-flight block"
  | .onCompletion => "Once, after the last block was processed"

def entries : List Entry :=
  [plainEntry (some 'f') "config" (some "CONFIG") "JSON configuration file path",
   plainEntry none "mpath" (some "MPATH")
     "Path to the block metadata file (`~` and $VARS are expanded)",
   plainEntry none "dry" none
     "Print the erase commands without running them or updating the metadata file",
   { plainEntry none "persist" (some "PERSIST")
       "When to rewrite the metadata file (default: per_block)" with
     choices := Persistence.all.map fun p => (p.word, meaning p) },
   plainEntry none "program" (some "PROGRAM") "Erase utility to invoke (default: nvm_vblk)",
   plainEntry none "device-prefix" (some "DEVICE_PREFIX")
     "Prefix joined with the device name from the metadata file (default: /dev/)",
   plainEntry (some 'q') "quiet" none "Suppress progress and report output",
   ⟨some 'h', "help", none, "Print help (see more with '--help')",
     "Print help (see a summary with '-h')", []⟩,
   plainEntry (some 'V') "version" none "Print version"]

def Entry.heading (e : Entry) : Styled :=
  let letter := match e.letter with
    | some letter => plain "  " ++ strong ("-" ++ letter.toString) ++ plain ", "
    | none => plain "      "
  let value := match e.value with
    | some value => plain (" <" ++ value ++ ">")
    | none => []
  letter ++ strong ("--" ++ e.name) ++ value

def widest (texts : List Styled) : Nat :=
  (texts.map Styled.width).foldl max 0

def Entry.line (width : Nat) (e : Entry) : Styled :=
  let choices := if e.choices.isEmpty then "" else
    " [possible values: " ++ ", ".intercalate (e.choices.map (·.1)) ++ "]"
  padRight width e.heading ++ plain ("  " ++ e.short ++ choices ++ "\n")

def indent : String := "          "

def label (choice : String × String) : Styled :=
  strong choice.1 ++ plain ":"

def Entry.paragraph (e : Entry) : Styled :=
  let width := widest (e.choices.map label)
  let choice (c : String × String) : Styled :=
    plain (indent ++ "- ") ++ padRight width (label c) ++ plain (" " ++ c.2 ++ "\n")
  let choices := if e.choices.isEmpty then [] else
    plain ("\n" ++ indent ++ "Possible values:\n") ++ e.choices.flatMap choice
  e.heading ++ plain ("\n" ++ indent ++ e.full ++ "\n") ++ choices

def usage : Styled :=
  title "Usage:" ++ plain " " ++ strong programName ++ plain " [OPTIONS]\n"

def text (full : Bool) : Styled :=
  plain "vblk purging\n\n" ++ usage ++ plain "\n" ++ title "Options:" ++ plain "\n" ++
    if full then (plain "\n").intercalate (entries.map Entry.paragraph)
    else entries.flatMap (Entry.line (widest (entries.map Entry.heading)))

def complaint (misuse : Arguments.Misuse) : String :=
  let reason := match misuse with
    | .unknown => "unexpected argument"
    | .badValue => "missing or invalid value of an option"
    | .repeated => "an option is given more than once"
    | .extraValue => "unexpected value of an option"
  "error: " ++ reason ++ "\n\n" ++ usage.print false

end BlockPurge.Help
