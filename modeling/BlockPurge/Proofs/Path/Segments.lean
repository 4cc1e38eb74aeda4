import BlockPurge.Path.Basic
import BlockPurge.Proofs.Text.Decoding
import Mathlib.Data.List.DropRight

/-!
# Segments of paths

A path is its start and the segments behind it, and every start with segments that fit behind it is
a path with just these. The folder of a path is what stands before its last name, without segments
that name nothing at the end. So a new name joined to that folder makes a path with the same folder,
whose last name is the new one.
-/
namespace BlockPurge.Path

/-! ## Splitting at slashes -/

theorem notMem_of_mem_splitOn {separator : UInt8} {s t : Bytes} (h : t ∈ s.splitOn separator) :
    separator ∉ t := by
  induction s generalizing t with
  | nil =>
    rw [List.splitOn_nil, List.mem_singleton] at h
    simp [h]
  | cons b rest ih =>
    rw [List.splitOn_cons_eq_if_modifyHead] at h
    split at h
    · rcases List.mem_cons.mp h with rfl | h
      · simp
      · exact ih h
    · rename_i hb
      obtain ⟨head, more, hs⟩ := List.exists_cons_of_ne_nil (List.splitOn_ne_nil separator rest)
      rw [hs] at ih h
      rcases List.mem_cons.mp h with rfl | h
      · have hne : separator ≠ b := fun heq => hb (by simp [heq])
        simp [hne, ih List.mem_cons_self]
      · exact ih (List.mem_cons_of_mem _ h)

theorem intercalate_concat {row : List Bytes} (hne : row ≠ []) (name : Bytes) :
    [slash].intercalate (row ++ [name]) = [slash].intercalate row ++ slash :: name := by
  induction row with
  | nil => exact absurd rfl hne
  | cons s rest ih =>
    cases rest with
    | nil => simp
    | cons t more =>
      rw [List.cons_append, List.intercalate_cons_of_ne_nil (by simp), ih (by simp),
        List.intercalate_cons_of_ne_nil (List.cons_ne_nil t more)]
      simp

/-! ## Starts -/

/-- Segments that stand behind the start of a path and are told from it. -/
inductive Behind : Bytes → List Bytes → Prop
  | root (row : List Bytes) : Behind [slash] row
  | here (rest : List Bytes) : Behind [dot] ([] :: rest)
  | bare {first : Bytes} (rest : List Bytes) :
      first ≠ [] → first ≠ [dot] → Behind [] (first :: rest)
  | empty : Behind [] [[]]

/-- A path with a given start and given segments behind it. -/
structure Spelled (path start : Bytes) (row : List Bytes) : Prop where
  behind : Behind start row
  filled : row ≠ []
  whole : ∀ s ∈ row, slash ∉ s
  eq : path = start ++ [slash].intercalate row

theorem exists_spelled (path : Bytes) : ∃ start row, Spelled path start row := by
  cases path with
  | nil => exact ⟨[], [[]], .empty, by simp, by simp, rfl⟩
  | cons b rest =>
    by_cases hb : b = slash
    · subst hb
      exact ⟨[slash], rest.splitOn slash, .root _, List.splitOn_ne_nil slash rest,
        fun _ => notMem_of_mem_splitOn, by rw [List.intercalate_splitOn]; rfl⟩
    · obtain ⟨head, more, hs⟩ := List.exists_cons_of_ne_nil (List.splitOn_ne_nil slash rest)
      have hsplit : (b :: rest).splitOn slash = (b :: head) :: more := by
        simp [List.splitOn_cons_eq_if_modifyHead, hb, hs]
      by_cases hdot : b :: head = [dot]
      · obtain ⟨rfl, rfl⟩ := List.cons.inj hdot
        refine ⟨[dot], [] :: more, .here more, by simp, ?_, ?_⟩
        · rw [← hs]
          exact fun _ => notMem_of_mem_splitOn
        · rw [← hs, List.intercalate_splitOn]
          rfl
      · refine ⟨[], (b :: head) :: more, .bare more (by simp) hdot, by simp, ?_, ?_⟩
        · rw [← hsplit]
          exact fun _ => notMem_of_mem_splitOn
        · rw [← hsplit, List.intercalate_splitOn]
          rfl

section
variable {path start : Bytes} {row : List Bytes}

theorem Spelled.anchor_eq (h : Spelled path start row) : anchor path = start := by
  obtain ⟨behind, filled, whole, rfl⟩ := h
  have hdot : slash ∉ [dot] := by decide
  cases behind with
  | root row => rfl
  | here rest =>
    have hhead : (segments ([dot] ++ [slash].intercalate ([] :: rest))).head? = some [dot] := by
      cases rest with
      | nil => rfl
      | cons t more =>
        have hpath : [dot] ++ [slash].intercalate ([] :: t :: more) =
            [dot] ++ slash :: [slash].intercalate (t :: more) := by simp
        rw [hpath, segments, List.splitOn_append_cons_self_of_not_mem hdot]
        rfl
    have hrelative : isAbsolute ([dot] ++ [slash].intercalate ([] :: rest)) = false := rfl
    rw [anchor, hrelative, hhead]
    rfl
  | @bare first rest hne hfirst =>
    have hhead : segments ([] ++ [slash].intercalate (first :: rest)) = first :: rest :=
      List.splitOn_intercalate slash whole filled
    obtain ⟨c, tail, rfl⟩ := List.exists_cons_of_ne_nil hne
    have hc : c ≠ slash := fun heq => whole _ List.mem_cons_self (heq ▸ List.mem_cons_self)
    have hrelative : isAbsolute ([] ++ [slash].intercalate ((c :: tail) :: rest)) = false := by
      cases rest <;> simpa [isAbsolute] using hc
    rw [anchor, hrelative, hhead]
    simpa using hfirst
  | empty => rfl

theorem Spelled.body_eq (h : Spelled path start row) : body path = row := by
  rw [body, h.anchor_eq, h.eq, List.drop_left]
  exact List.splitOn_intercalate slash h.whole h.filled

end

/-! ## Names and folders -/

/-- A segment that names something of its own. -/
structure IsName (name : Bytes) : Prop where
  whole : slash ∉ name
  filled : isIdle name = false
  noParent : isParent name = false

theorem IsName.ne_nil {name : Bytes} (h : IsName name) : name ≠ [] := by
  rintro rfl
  cases h.filled

theorem IsName.ne_dot {name : Bytes} (h : IsName name) : name ≠ [dot] := by
  rintro rfl
  cases h.filled

theorem isName_of_length {name : Bytes} (whole : slash ∉ name) (h : 2 < name.length) :
    IsName name := by
  match name, h with
  | _ :: _ :: _ :: _, _ => exact ⟨whole, by simp [isIdle], by simp [isParent]⟩

theorem dropIdle_concat {name : Bytes} (h : isIdle name = false) (front : List Bytes) :
    dropIdle (front ++ [name]) = front ++ [name] := by
  simp [dropIdle, h]

theorem dropIdle_isPrefix (row : List Bytes) : dropIdle row <+: row :=
  List.rdropWhile_prefix isIdle row

theorem dropIdle_dropIdle (row : List Bytes) : dropIdle (dropIdle row) = dropIdle row :=
  List.rdropWhile_idempotent isIdle row

theorem isIdle_getLast_dropIdle {row : List Bytes} {s : Bytes}
    (h : (dropIdle row).getLast? = some s) : isIdle s = false := by
  have hne : dropIdle row ≠ [] := by
    intro heq
    rw [heq] at h
    cases h
  have hlast := List.rdropWhile_last_not isIdle row hne
  rw [List.getLast?_eq_some_getLast hne] at h
  rw [← Option.some.inj h]
  exact Bool.not_eq_true _ ▸ hlast

/-- The last of the segments that name something is the last one left without idle ones at the end.
-/
theorem getLast?_filter_idle (row : List Bytes) :
    (row.filter fun s => !isIdle s).getLast? = (dropIdle row).getLast? := by
  rw [List.getLast?_filter, List.find?_eq_head?_dropWhile_not, dropIdle, List.getLast?_reverse]
  simp

section
variable {path start name : Bytes} {row : List Bytes}

/-- The last name of a path and what stands before it. -/
theorem Spelled.fileName?_eq_some_iff (h : Spelled path start row) :
    fileName? path = some name ↔
      ∃ front, dropIdle row = front ++ [name] ∧ isParent name = false := by
  rw [fileName?, components, h.body_eq, getLast?_filter_idle]
  constructor
  · intro hname
    split at hname
    · rename_i last hlast
      split at hname
      · cases hname
      · rename_i hparent
        obtain rfl := Option.some.inj hname
        obtain ⟨front, hfront⟩ := List.getLast?_eq_some_iff.mp hlast
        exact ⟨front, hfront, Bool.not_eq_true _ ▸ hparent⟩
    · cases hname
  · rintro ⟨front, hfront, hparent⟩
    rw [hfront, List.getLast?_concat]
    simp [hparent]

theorem Spelled.parent?_eq (h : Spelled path start row) {front : List Bytes}
    (hrow : dropIdle row = front ++ [name]) :
    parent? path = some (start ++ [slash].intercalate (dropIdle front)) := by
  rw [parent?, h.body_eq, h.anchor_eq, hrow]
  cases hfront : front ++ [name] with
  | nil => simp at hfront
  | cons s rest =>
    rw [← hfront]
    simp

theorem isName_of_fileName? (h : fileName? path = some name) : IsName name := by
  obtain ⟨start, row, spelled⟩ := exists_spelled path
  obtain ⟨front, hrow, hparent⟩ := spelled.fileName?_eq_some_iff.mp h
  have hlast : (dropIdle row).getLast? = some name := by rw [hrow, List.getLast?_concat]
  have hmem : name ∈ row := (dropIdle_isPrefix row).subset (List.mem_of_getLast? hlast)
  exact ⟨spelled.whole name hmem, isIdle_getLast_dropIdle hlast, hparent⟩

end

/-- Joining puts a slash between a folder and a name, if the last segment of the folder names
something. -/
theorem join_segments {start name : Bytes} {used : List Bytes} {last : Bytes}
    (hlast : used.getLast? = some last) (filled : isIdle last = false) (whole : slash ∉ last) :
    join (start ++ [slash].intercalate used) name =
      start ++ [slash].intercalate (used ++ [name]) := by
  obtain ⟨front, rfl⟩ := List.getLast?_eq_some_iff.mp hlast
  have hends : ∃ before, [slash].intercalate (front ++ [last]) = before ++ last := by
    by_cases hf : front = []
    · exact ⟨[], by simp [hf]⟩
    · exact ⟨[slash].intercalate front ++ [slash], by simp [intercalate_concat hf]⟩
  obtain ⟨before, hbefore⟩ := hends
  obtain ⟨l, c, rfl⟩ : ∃ l c, last = l ++ [c] := by
    rcases List.eq_nil_or_concat' last with rfl | ⟨l, c, rfl⟩
    · cases filled
    · exact ⟨l, c, rfl⟩
  have hc : c ≠ slash := fun heq => whole (by simp [heq])
  have hne : front ++ [l ++ [c]] ≠ [] := by simp
  rw [intercalate_concat hne, hbefore, join]
  simp [← List.append_assoc, hc]

/-- A name joined to a folder comes behind the segments of that folder. -/
theorem Behind.join {start : Bytes} {used row : List Bytes} {name : Bytes} (h : Behind start row)
    (hused : used <+: row) (hend : dropIdle used = used) (whole : ∀ s ∈ used, slash ∉ s)
    (hname : IsName name) :
    ∃ front, Spelled (join (start ++ [slash].intercalate used) name) start (front ++ [name]) ∧
      dropIdle front = used := by
  rcases List.eq_nil_or_concat' used with rfl | ⟨inner, last, rfl⟩
  -- The folder is the start alone.
  · have hwhole : ∀ s ∈ [name], slash ∉ s := by simpa using hname.whole
    cases h with
    | root row => exact ⟨[], ⟨.root _, by simp, hwhole, by simp [Path.join]⟩, rfl⟩
    | here rest =>
      have hjoin : Path.join ([dot] ++ [slash].intercalate []) name =
          [dot] ++ [slash].intercalate [[], name] := by
        have hdot : dot ≠ slash := by decide
        simp [Path.join, hdot]
      exact ⟨[[]], ⟨.here [name], by simp, by simpa using hname.whole, hjoin⟩, rfl⟩
    | bare rest _ _ =>
      exact ⟨[], ⟨.bare [] hname.ne_nil hname.ne_dot, by simp, hwhole, by simp [Path.join]⟩, rfl⟩
    | empty =>
      exact ⟨[], ⟨.bare [] hname.ne_nil hname.ne_dot, by simp, hwhole, by simp [Path.join]⟩, rfl⟩
  · have hlast : (inner ++ [last]).getLast? = some last := List.getLast?_concat
    have hkept : (dropIdle (inner ++ [last])).getLast? = some last := by rw [hend, hlast]
    have filled : isIdle last = false := isIdle_getLast_dropIdle hkept
    have hjoin : Path.join (start ++ [slash].intercalate (inner ++ [last])) name =
        start ++ [slash].intercalate (inner ++ [last] ++ [name]) :=
      join_segments hlast filled (whole last (by simp))
    have hwhole : ∀ s ∈ inner ++ [last] ++ [name], slash ∉ s := by
      rw [List.forall_mem_append]
      exact ⟨whole, by simpa using hname.whole⟩
    refine ⟨inner ++ [last], ⟨?_, by simp, hwhole, hjoin⟩, hend⟩
    obtain ⟨first, used, hfirst⟩ := List.exists_cons_of_ne_nil (l := inner ++ [last]) (by simp)
    rw [hfirst] at hused hend ⊢
    cases h with
    | root row => exact .root _
    | here rest =>
      obtain ⟨rfl, -⟩ := List.cons_prefix_cons.mp hused
      exact .here _
    | bare rest hne hdot =>
      obtain ⟨rfl, -⟩ := List.cons_prefix_cons.mp hused
      exact .bare _ hne hdot
    | empty =>
      obtain ⟨rfl, hrest⟩ := List.cons_prefix_cons.mp hused
      rw [List.prefix_nil.mp hrest] at hend
      cases hend

/-- **A name joined to the folder of a path makes a path with that folder and that name.** -/
theorem parent?_join {path name other : Bytes} (h : fileName? path = some name)
    (hother : IsName other) :
    ∃ folder, parent? path = some folder ∧ parent? (join folder other) = some folder ∧
      fileName? (join folder other) = some other := by
  obtain ⟨start, row, spelled⟩ := exists_spelled path
  obtain ⟨front, hrow, -⟩ := spelled.fileName?_eq_some_iff.mp h
  have hused : dropIdle front <+: row :=
    ((dropIdle_isPrefix front).trans (List.prefix_append front [name])).trans
      (hrow ▸ dropIdle_isPrefix row)
  obtain ⟨before, joined, hbefore⟩ := spelled.behind.join hused (dropIdle_dropIdle front)
    (fun s hs => spelled.whole s (hused.subset hs)) hother
  have hlast := dropIdle_concat hother.filled before
  refine ⟨_, spelled.parent?_eq hrow, ?_, ?_⟩
  · rw [joined.parent?_eq hlast, hbefore]
  · exact joined.fileName?_eq_some_iff.mpr ⟨before, hlast, hother.noParent⟩

/-! ## Stems -/

/-- The stem of a name is what stands before its last dot, and the whole name if it has no dot but
perhaps at its start. -/
inductive IsStem : Bytes → Bytes → Prop
  | extended {stem extension : Bytes} :
      stem ≠ [] → dot ∉ extension → IsStem (stem ++ dot :: extension) stem
  | whole {name : Bytes} : dot ∉ name.tail → IsStem name name

theorem dropWhile_ne_dot {front : Bytes} (h : dot ∉ front) (rest : Bytes) :
    (front ++ rest).dropWhile (· ≠ dot) = rest.dropWhile (· ≠ dot) :=
  List.dropWhile_append_of_pos fun b hb => by simpa using fun heq : b = dot => h (heq ▸ hb)

theorem IsStem.stemOf_eq {name stem : Bytes} (h : IsStem name stem) : stemOf name = stem := by
  unfold stemOf
  cases h with
  | @extended stem extension hne hdot =>
    have hreverse : (stem ++ dot :: extension).reverse =
        extension.reverse ++ dot :: stem.reverse := by
      simp
    have hkept : (dot :: stem.reverse).dropWhile (· ≠ dot) = dot :: stem.reverse := by simp
    rw [hreverse, dropWhile_ne_dot (by simpa using hdot), hkept, List.drop_one, List.tail_cons]
    split
    · rename_i hempty
      exact absurd (List.reverse_eq_nil_iff.mp hempty) hne
    · exact List.reverse_reverse stem
  | whole hdot =>
    cases name with
    | nil => rfl
    | cons b rest =>
      have hrest : dot ∉ rest := hdot
      rw [List.reverse_cons, dropWhile_ne_dot (by simpa using hrest)]
      by_cases hb : b = dot
      · simp [hb]
      · simp [hb]

theorem exists_isStem (name : Bytes) : ∃ stem, IsStem name stem := by
  by_cases h : dot ∈ name.tail
  · cases name with
    | nil => cases h
    | cons b rest =>
      -- The last dot is the first one from behind.
      obtain ⟨after, before, hsplit, hafter⟩ :=
        List.eq_append_cons_of_mem (List.mem_reverse.mpr h)
      have hrest : rest = before.reverse ++ dot :: after.reverse := by
        have hback := congrArg List.reverse hsplit
        simpa using hback
      rw [hrest]
      have hstem : IsStem (b :: before.reverse ++ dot :: after.reverse) (b :: before.reverse) :=
        .extended (by simp) (by simpa using hafter)
      exact ⟨_, hstem⟩
  · exact ⟨name, .whole h⟩

theorem isStem_iff {name stem : Bytes} : IsStem name stem ↔ stemOf name = stem := by
  refine ⟨IsStem.stemOf_eq, fun h => ?_⟩
  obtain ⟨found, hfound⟩ := exists_isStem name
  rwa [← h, hfound.stemOf_eq]

theorem IsStem.subset {name stem : Bytes} (h : IsStem name stem) : stem ⊆ name := by
  cases h with
  | extended _ _ => exact List.subset_append_left _ _
  | whole _ => exact List.Subset.refl _

/-- Broken runs are read as another character than a slash, so a slash in the text of a stem would
come from the name. -/
theorem IsName.slash_notMem_stem {name : Bytes} (h : IsName name) :
    '/' ∉ (Text.decodeLossy (stemOf name)).toList := by
  intro hmem
  have hbytes := Text.encodeChar_subset_of_mem_decodeLossy hmem (by decide)
  have hstem : slash ∈ stemOf name := hbytes (List.mem_singleton.mpr rfl)
  exact h.whole ((isStem_iff.mpr rfl).subset hstem)

theorem slash_notMem_stem (path : Bytes) : '/' ∉ (stem path).toList := by
  unfold stem
  split
  · rename_i name hname
    exact (isName_of_fileName? hname).slash_notMem_stem
  · simp

end BlockPurge.Path
