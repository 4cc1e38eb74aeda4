import BlockPurge.Progress.Display

/-!
# What a line display prints

A line display prints whole lines. It keeps one count for each indicator that is running and shows
it once, when the indicator is finished. What requests print and what they leave of the display are
taken together, so that the printout of a run is put together from those of its parts.
-/
namespace BlockPurge.Progress

/-- Lines as they are printed, each with its end. -/
def sheet (lines : List String) : String :=
  String.join (lines.map (· ++ "\n"))

theorem sheet_append (lines more : List String) :
    sheet (lines ++ more) = sheet lines ++ sheet more := by
  simp [sheet]

theorem sheet_singleton (line : String) : sheet [line] = line ++ "\n" := by
  simp [sheet]

/-- The text of a finished indicator, with its counts. -/
def finalLine (text : String) (done total : Nat) : String :=
  text ++ (Tally.mk done total).text

namespace LineDisplay

/-- The display after some requests. -/
def after (d : LineDisplay) (requests : List Request) : LineDisplay :=
  requests.foldl (fun d request => (d.handle request).1) d

/-- A display whose only indicator, the last that was started, has come to a count. -/
def counting (id done total : Nat) : LineDisplay :=
  ⟨id, [(id, ⟨done, total⟩)]⟩

/-- Requests print some lines and leave a display in a given state. -/
structure Prints (d : LineDisplay) (requests : List Request) (lines : List String)
    (left : LineDisplay) : Prop where
  printed : d.print requests = sheet lines
  after : d.after requests = left

theorem after_append (d : LineDisplay) (requests more : List Request) :
    d.after (requests ++ more) = (d.after requests).after more :=
  List.foldl_append

theorem print_append (d : LineDisplay) (requests more : List Request) :
    d.print (requests ++ more) = d.print requests ++ (d.after requests).print more := by
  induction requests generalizing d with
  | nil => simp [print, after]
  | cons request rest ih =>
    rw [List.cons_append, print, print, ih, String.append_assoc]
    rfl

section
variable {d d' d'' : LineDisplay} {requests more : List Request} {lines rest : List String}

theorem Prints.append (h : Prints d requests lines d') (k : Prints d' more rest d'') :
    Prints d (requests ++ more) (lines ++ rest) d'' where
  printed := by rw [print_append, h.printed, h.after, k.printed, sheet_append]
  after := by rw [after_append, h.after, k.after]

end

theorem prints_nil (d : LineDisplay) : Prints d [] [] d :=
  ⟨rfl, rfl⟩

theorem prints_line (d : LineDisplay) (text : String) : Prints d [.line text] [text] d where
  printed := by simp [print, handle, sheet_singleton]
  after := rfl

theorem prints_message (d : LineDisplay) (id : Nat) (text : String) :
    Prints d [.message id text] [] d where
  printed := by simp [print, handle, sheet, String.join]
  after := rfl

/-- The first indicator of a fresh display has the number one. -/
theorem prints_start (title : String) (total current : Nat) :
    Prints fresh [.start title total current] [title] (counting 1 current total) where
  printed := by simp [print, handle, sheet_singleton]
  after := rfl

theorem prints_advance {id done total delta : Nat} (h : done + delta ≤ largestCount) :
    Prints (counting id done total) [.advance id delta] [] (counting id (done + delta) total) where
  printed := by simp [print, handle, sheet, String.join]
  after := by simp [LineDisplay.after, handle, counting, Tally.advance, Nat.min_eq_left h]

theorem prints_finish (id done total : Nat) (text : String) :
    Prints (counting id done total) [.finish id text] [finalLine text done total] ⟨id, []⟩ where
  printed := by simp [print, handle, counting, finalLine, sheet_singleton]
  after := by simp [LineDisplay.after, handle, counting]

end LineDisplay

end BlockPurge.Progress
