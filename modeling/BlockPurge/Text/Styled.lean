/-!
# Styled text

A text in spans, some of which stand out on a terminal. A terminal turns a style on and off at
escape sequences; an output that is none gets the bare text, which is what widths are counted in.
-/
namespace BlockPurge.Text

inductive Style where
  | plain
  | strong
  | title
  deriving DecidableEq, Repr

def Style.opening : Style → String
  | .plain => ""
  | .strong => "\x1b[1m"
  | .title => "\x1b[1m\x1b[4m"

def Style.closing : Style → String
  | .plain => ""
  | .strong | .title => "\x1b[0m"

structure Span where
  style : Style
  text : String
  deriving DecidableEq, Repr

def Span.marked (s : Span) : String :=
  s.style.opening ++ s.text ++ s.style.closing

abbrev Styled := List Span

namespace Styled

def plain (text : String) : Styled := [⟨.plain, text⟩]

def strong (text : String) : Styled := [⟨.strong, text⟩]

def title (text : String) : Styled := [⟨.title, text⟩]

def width (s : Styled) : Nat :=
  (s.map fun span => span.text.length).foldl (· + ·) 0

def padRight (upTo : Nat) (s : Styled) : Styled :=
  s ++ plain ("".pushn ' ' (upTo - s.width))

def print (styles : Bool) (s : Styled) : String :=
  s.foldl (fun printed span => printed ++ if styles then span.marked else span.text) ""

end Styled

end BlockPurge.Text
