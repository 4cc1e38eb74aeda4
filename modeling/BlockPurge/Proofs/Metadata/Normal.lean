import BlockPurge.Proofs.Metadata.Grammar
import BlockPurge.Proofs.Metadata.Storing

/-!
# The normal form of a metadata file

The normal form of a text has its lines without their surrounding white space, each ended by one
newline. Reading a text comes to reading its normal form, for accepted and refused texts alike, and
what is written of accepted metadata is the normal form of the text that it was read from. So a file
keeps its bytes when it is loaded and recorded exactly if it is in normal form, and texts with the
same normal form are read alike, whatever their line ends and the white space at the ends of their
lines.
-/
namespace BlockPurge

namespace Text

/-! ## Texts and their lines -/

theorem splitLines_eq (s : List Char) :
    splitLines s = (pieces s).1 ++ if (pieces s).2 = [] then [] else [(pieces s).2] := by
  rw [splitLines, splitOn_eq_pieces, List.getLast?_concat, List.dropLast_concat]
  by_cases hl : (pieces s).2 = []
  · simp [hl]
  · simp [hl]

theorem splitLines_ended {line : List Char} (h : '\n' ∉ line) (rest : List Char) :
    splitLines (line ++ '\n' :: rest) = line :: splitLines rest := by
  rw [splitLines_eq, pieces_ended h, splitLines_eq, List.cons_append]

theorem splitLines_unended {line : List Char} (h : '\n' ∉ line) (hne : line ≠ []) :
    splitLines line = [line] := by
  simp [splitLines_eq, pieces_unended h, hne]

/-! ## White space around lines -/

/-- A line with white space other than newlines added at its ends. -/
def Padded (line padded : List Char) : Prop :=
  ∃ before behind, (∀ c ∈ before ++ behind, isBlank c = true ∧ c ≠ '\n') ∧
    padded = before ++ line ++ behind

theorem Padded.refl (line : List Char) : Padded line line :=
  ⟨[], [], by simp, by simp⟩

theorem Padded.trim_eq {line padded : List Char} (h : Padded line padded) :
    trim padded = trim line := by
  obtain ⟨before, behind, hblank, rfl⟩ := h
  obtain ⟨hbefore, hbehind⟩ := List.forall_mem_append.mp hblank
  rw [trim_append_blank _ fun c hc => (hbehind c hc).1,
    trim_blank_append fun c hc => (hbefore c hc).1]

theorem Padded.notMem {line padded : List Char} (h : Padded line padded) (hl : '\n' ∉ line) :
    '\n' ∉ padded := by
  obtain ⟨before, behind, hblank, rfl⟩ := h
  obtain ⟨hbefore, hbehind⟩ := List.forall_mem_append.mp hblank
  simp only [List.mem_append, not_or]
  exact ⟨⟨fun hm => (hbefore _ hm).2 rfl, hl⟩, fun hm => (hbehind _ hm).2 rfl⟩

theorem Padded.ne_nil {line padded : List Char} (h : Padded line padded) (hne : line ≠ []) :
    padded ≠ [] := by
  obtain ⟨before, behind, -, rfl⟩ := h
  simp [hne]

/-- A text with white space other than newlines added at the ends of its lines. -/
inductive LinesPadded : List Char → List Char → Prop
  | none : LinesPadded [] []
  | last {line padded : List Char} :
      line ≠ [] → '\n' ∉ line → Padded line padded → LinesPadded line padded
  | line {line padded rest rest' : List Char} :
      '\n' ∉ line → Padded line padded → LinesPadded rest rest' →
      LinesPadded (line ++ '\n' :: rest) (padded ++ '\n' :: rest')

theorem LinesPadded.map_trim {s t : List Char} (h : LinesPadded s t) :
    (splitLines t).map trim = (splitLines s).map trim := by
  induction h with
  | none => rfl
  | last hne hl hp =>
    rw [splitLines_unended hl hne, splitLines_unended (hp.notMem hl) (hp.ne_nil hne)]
    simp [hp.trim_eq]
  | line hl hp _ ih =>
    rw [splitLines_ended hl, splitLines_ended (hp.notMem hl), List.map_cons, List.map_cons, ih,
      hp.trim_eq]

/-- A text with a carriage return and a newline for each of its line ends. -/
def withReturns : List Char → List Char
  | '\r' :: '\n' :: rest => '\r' :: '\n' :: withReturns rest
  | '\n' :: rest => '\r' :: '\n' :: withReturns rest
  | c :: rest => c :: withReturns rest
  | [] => []

theorem withReturns_unended {line : List Char} (h : '\n' ∉ line) : withReturns line = line := by
  induction line with
  | nil => rfl
  | cons c rest ih =>
    obtain ⟨hc, hr⟩ := not_or.mp fun hm => h (List.mem_cons.mpr hm)
    unfold withReturns
    split <;> simp_all

theorem withReturns_ended {line : List Char} (h : '\n' ∉ line) (rest : List Char) :
    withReturns (line ++ '\n' :: rest) = dropReturn line ++ '\r' :: '\n' :: withReturns rest := by
  induction line with
  | nil => rfl
  | cons c line ih =>
    obtain ⟨hc, hl⟩ := not_or.mp fun hm => h (List.mem_cons.mpr hm)
    cases line with
    | nil =>
      by_cases hr : c = '\r'
      · subst hr
        rfl
      · rw [List.singleton_append, withReturns, withReturns]
        · simp [dropReturn, hr]
        · simp [hr]
        · exact Ne.symm hc
    | cons d more =>
      have hd : d ≠ '\n' := fun hd => hl (by simp [hd])
      have hdrop : dropReturn (c :: d :: more) = c :: dropReturn (d :: more) := by
        simp only [dropReturn, List.getLast?_cons_cons, List.dropLast_cons_cons]
        split <;> rfl
      have hstep : withReturns (c :: d :: more ++ '\n' :: rest) =
          c :: withReturns (d :: more ++ '\n' :: rest) := by
        rw [List.cons_append, withReturns]
        · simp [hd]
        · exact Ne.symm hc
      rw [hstep, ih hl, hdrop, List.cons_append]

/-- Ending a line by a carriage return and a newline comes to padding it. -/
theorem padded_withReturn (line : List Char) : Padded line (dropReturn line ++ ['\r']) := by
  unfold dropReturn
  split
  · rename_i hr
    obtain ⟨front, rfl⟩ := List.getLast?_eq_some_iff.mp hr
    rw [List.dropLast_concat]
    exact Padded.refl _
  · have hblank : isBlank '\r' = true ∧ '\r' ≠ '\n' := by decide
    exact ⟨[], ['\r'], List.forall_mem_singleton.mpr hblank, rfl⟩

theorem linesPadded_withReturns (s : List Char) : LinesPadded s (withReturns s) := by
  induction hn : s.length using Nat.strong_induction_on generalizing s with
  | _ n ih =>
    rcases line_cases s with hs | ⟨line, rest, hline, rfl⟩
    · rw [withReturns_unended hs]
      cases s with
      | nil => exact .none
      | cons c rest => exact .last (by simp) hs (Padded.refl _)
    · have hlt : rest.length < n := by
        rw [← hn, List.length_append, List.length_cons]
        omega
      rw [withReturns_ended hline, List.append_cons (dropReturn line)]
      exact .line hline (padded_withReturn line) (ih rest.length hlt rest rfl)

end Text

namespace Metadata

/-! ## The normal form -/

/-- The lines of a text without their surrounding white space, each ended by one newline. -/
def normal (content : String) : String :=
  String.join ((trimmedLines content).map (· ++ "\n"))

/-- A text that ends in a newline and has no white space at the ends of its lines. -/
def IsNormal (content : String) : Prop :=
  content.toList.getLast? = some '\n' ∧ ∀ line ∈ content.toList.splitOn '\n', Text.IsBare line

theorem toList_normal (content : String) :
    (normal content).toList =
      ((Text.splitLines content.toList).map Text.trim).flatMap (· ++ ['\n']) := by
  simp [normal, trimmedLines, String.toList_join, List.flatMap_map]

/-- Reading a text looks at its trimmed lines only. -/
theorem parse_congr {content other : String} (h : trimmedLines content = trimmedLines other) :
    parse content = parse other := by
  rw [parse, parse, rows_eq, rows_eq, h]

theorem trimmedLines_normal (content : String) :
    trimmedLines (normal content) = trimmedLines content := by
  rw [← rows_eq, normal, ← rows_eq]
  apply rows_join
  exact fun row hm => isRow_of_mem_rows hm

theorem parse_normal (content : String) : parse (normal content) = parse content :=
  parse_congr (trimmedLines_normal content)

theorem normal_normal (content : String) : normal (normal content) = normal content := by
  rw [normal, trimmedLines_normal, ← normal]

theorem render_of_parse {content : String} {m : Metadata} (h : parse content = .ok m) :
    m.render = normal content := by
  rw [render, ← rows_of_parse h, rows_eq, normal]

theorem bare_trimmed (content : String) :
    ∀ line ∈ (Text.splitLines content.toList).map Text.trim, '\n' ∉ line ∧ Text.IsBare line := by
  intro line hm
  have hmem : String.ofList line ∈ rows content := by
    obtain ⟨found, hfound, rfl⟩ := List.mem_map.mp hm
    rw [rows_eq]
    exact List.mem_map_of_mem hfound
  have hrow : IsRow (String.ofList line) := isRow_of_mem_rows hmem
  rw [← String.toList_ofList (l := line)]
  exact ⟨hrow.oneLine, Text.trim_eq_self_iff.mp hrow.trimmed⟩

/-- A text is its own normal form exactly if it is empty, or ends in a newline and has no white
space at the ends of its lines. -/
theorem normal_eq_self_iff {content : String} :
    normal content = content ↔ content = "" ∨ IsNormal content := by
  rw [← String.toList_inj, toList_normal, IsNormal, Text.splitOn_eq_pieces]
  constructor
  · intro h
    have hrow := bare_trimmed content
    generalize (Text.splitLines content.toList).map Text.trim = lines at h hrow
    rcases List.eq_nil_or_concat lines with rfl | ⟨front, line, rfl⟩
    · exact .inl (String.toList_inj.mp h.symm)
    · have hpieces := Text.pieces_flatMap fun line hm => (hrow line hm).1
      rw [← h, hpieces]
      refine .inr ⟨by simp, ?_⟩
      rw [List.forall_mem_append]
      exact ⟨fun line hm => (hrow line hm).2, by simp [Text.IsBare]⟩
  · intro h
    rcases h with rfl | ⟨hend, hbare⟩
    · rfl
    have hjoin := Text.pieces_join content.toList
    have hlast : (Text.pieces content.toList).2 = [] := by
      by_contra hne
      have hm : '\n' ∈ (Text.pieces content.toList).2 := by
        rw [← hjoin, List.getLast?_append_of_ne_nil _ hne] at hend
        exact List.mem_of_getLast? hend
      exact (Text.notMem_pieces content.toList).2 hm
    have htrim : ∀ line ∈ (Text.pieces content.toList).1, Text.trim line = line :=
      fun line hm => Text.trim_eq_self_iff.mpr (hbare line (List.mem_append_left _ hm))
    rw [Text.splitLines_eq, if_pos hlast, List.append_nil, List.map_congr_left htrim, List.map_id']
    simpa [hlast] using hjoin

/-! ## Texts that are read alike -/

theorem trimmedLines_of_linesPadded {content other : String}
    (h : Text.LinesPadded content.toList other.toList) :
    trimmedLines other = trimmedLines content := by
  have hmap := congrArg (List.map String.ofList) h.map_trim
  rw [List.map_map, List.map_map] at hmap
  exact hmap

/-- A text whose last line is ended by no newline, and is not blank. -/
def EndsNonBlank (content : String) : Prop :=
  ∃ line, (content.toList.splitOn '\n').getLast? = some line ∧ ∃ c ∈ line, Text.isBlank c = false

theorem trimmedLines_concat_newline {content : String} (h : EndsNonBlank content) :
    trimmedLines (content ++ "\n") = trimmedLines content := by
  obtain ⟨line, hlast, c, hc, -⟩ := h
  rw [Text.splitOn_eq_pieces, List.getLast?_concat] at hlast
  obtain rfl := Option.some.inj hlast
  have hne : (Text.pieces content.toList).2 ≠ [] := List.ne_nil_of_mem hc
  have happend : (content ++ "\n").toList = content.toList ++ ['\n'] := String.toList_append
  simp [trimmedLines, happend, Text.splitLines_eq, Text.pieces_concat_newline, hne]

/-- Reading and writing a metadata file go through the normal form of its text. -/
structure GoesByNormal (content : String) : Prop where
  /-- A text is accepted as the same metadata, or refused for the same fault, as its normal form. -/
  parsed : parse (normal content) = parse content
  idempotent : normal (normal content) = normal content
  rendered : ∀ m, parse content = .ok m → m.render = normal content
  identical : ∀ m, parse content = .ok m → (m.render = content ↔ IsNormal content)
  /-- Loading a file and recording what was loaded keeps the bytes of a text in normal form, and of
  no other. -/
  recorded : ∀ {v w : Volume} {draw : Volume.Draw} {path : Bytes} {m : Metadata}, v.Sound →
    Stored v path content m → m.persist v draw path = (.ok (), w) →
    (w.read path = .ok (Text.encode content) ↔ IsNormal content)
  withReturns : parse (String.ofList (Text.withReturns content.toList)) = parse content
  padded : ∀ other, Text.LinesPadded content.toList other.toList → parse other = parse content
  unended : ∀ front, content = front ++ "\n" → EndsNonBlank front → parse front = parse content

/-- **Metadata files go by their normal form**, whatever their text. -/
theorem goesByNormal (content : String) : GoesByNormal content := by
  have identical : ∀ m, parse content = .ok m → (m.render = content ↔ IsNormal content) := by
    intro m hm
    have hne : content ≠ "" := by
      rintro rfl
      cases hm
    rw [render_of_parse hm, normal_eq_self_iff, or_iff_right hne]
  constructor
  case parsed => exact parse_normal content
  case idempotent => exact normal_normal content
  case rendered => exact fun m hm => render_of_parse hm
  case identical => exact identical
  case recorded =>
    intro v w draw path m sound stored granted
    have hread := Volume.read_replace sound stored.read (replace_of_persist_ok granted)
    rw [hread, Except.ok.injEq, Text.encode_inj]
    exact identical m stored.parsed
  case withReturns =>
    apply parse_congr
    apply trimmedLines_of_linesPadded
    rw [String.toList_ofList]
    exact Text.linesPadded_withReturns content.toList
  case padded =>
    intro other h
    exact parse_congr (trimmedLines_of_linesPadded h)
  case unended =>
    rintro front rfl h
    exact parse_congr (trimmedLines_concat_newline h).symm

/-- White space at the ends of lines, carriage returns and a missing newline go away. -/
example : normal " nvme0\r\n a\rb \n\n0X4\t\n\u00a000005" = "nvme0\na\rb\n\n0X4\n00005\n" := rfl

end Metadata

end BlockPurge
