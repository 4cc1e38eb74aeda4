import BlockPurge.Proofs.Path.Segments
import BlockPurge.Proofs.Volume.Reach

/-!
# Rooted places and their absolute paths

A place is rooted if folders alone lead to it by names that a path can spell. Its absolute path
then walks back to it, or to nothing at all. The current folder of a volume is expected to be rooted
unless it has been removed, which is what `Sound` says.
-/
namespace BlockPurge

namespace Volume

/-- A name that a path can spell and that stands for itself. -/
structure Proper (name : Name) : Prop where
  filled : name ≠ slashName
  whole : Path.slash ∉ name
  noDot : name ≠ [Path.dot]
  noUp : name ≠ [Path.dot, Path.dot]

/-- Folders alone lead to a place, by proper names. -/
structure Rooted (v : Volume) (p : Place) : Prop where
  proper : ∀ name ∈ p, Proper name
  folder : ∀ {q}, q <+: p → q ≠ p → ∃ mode, v.entry? q = some (.folder mode)

/-- The current folder is where its names say, or has been removed. -/
def Sound (v : Volume) : Prop :=
  isRemoved v.here = false → v.Rooted v.here

/-- The current folder is a folder that stands where its names say, or has been removed. -/
def Standing (v : Volume) : Prop :=
  isRemoved v.here = false → v.Rooted v.here ∧ ∃ mode, v.entry? v.here = some (.folder mode)

theorem rooted_root (v : Volume) : v.Rooted [] where
  proper := by simp
  folder h hn := absurd (List.prefix_nil.mp h) hn

theorem sound_of_root {v : Volume} (h : v.here = []) : v.Sound :=
  fun _ => h ▸ v.rooted_root

theorem standing_of_root {v : Volume} (h : v.here = []) : v.Standing :=
  fun _ => h ▸ ⟨v.rooted_root, _, v.entry?_root⟩

theorem Rooted.concat {v : Volume} {p : Place} {name : Name} {mode : Mode} (h : v.Rooted p)
    (hp : v.entry? p = some (.folder mode)) (hn : Proper name) : v.Rooted (p ++ [name]) where
  proper n hm := by
    rcases List.mem_append.mp hm with hm | hm
    · exact h.proper n hm
    · exact List.mem_singleton.mp hm ▸ hn
  folder {q} hq hne := by
    rcases List.prefix_concat_iff.mp hq with rfl | hq
    · exact absurd rfl hne
    · by_cases hqp : q = p
      · exact ⟨mode, hqp ▸ hp⟩
      · exact h.folder hq hqp

theorem Rooted.dropLast {v : Volume} {p : Place} (h : v.Rooted p) : v.Rooted p.dropLast where
  proper n hm := h.proper n ((List.dropLast_prefix p).subset hm)
  folder {q} hq hne := by
    refine h.folder (hq.trans (List.dropLast_prefix p)) ?_
    intro heq
    subst heq
    exact hne (hq.eq_of_length_le (List.dropLast_prefix q).length_le)

theorem Rooted.mono {v w : Volume} {p : Place} (h : v.Rooted p)
    (hk : ∀ {q mode}, v.entry? q = some (.folder mode) → w.entry? q = some (.folder mode)) :
    w.Rooted p where
  proper := h.proper
  folder hq hne := by
    obtain ⟨mode, hf⟩ := h.folder hq hne
    exact ⟨mode, hk hf⟩

/-- What leads to a rooted place from inside is folders all the way. -/
theorem Rooted.inner {v : Volume} {p q : Place} {name : Name} (h : v.Rooted (p ++ [name]))
    (hq : q <+: p) : ∃ mode, v.entry? q = some (.folder mode) := by
  refine h.folder (hq.trans (List.prefix_append p [name])) ?_
  intro heq
  subst heq
  have hlen := hq.length_le
  rw [List.length_append, List.length_singleton] at hlen
  omega

theorem Sound.mono {v w : Volume} (h : v.Sound) (hh : w.here = v.here)
    (hk : ∀ {q mode}, v.entry? q = some (.folder mode) → w.entry? q = some (.folder mode)) :
    w.Sound :=
  fun hr => hh ▸ (h (hh ▸ hr)).mono hk

theorem Standing.mono {v w : Volume} (h : v.Standing) (hh : w.here = v.here)
    (hk : ∀ {q mode}, v.entry? q = some (.folder mode) → w.entry? q = some (.folder mode)) :
    w.Standing := by
  intro hr
  obtain ⟨hrooted, mode, hf⟩ := h (hh ▸ hr)
  exact hh ▸ ⟨hrooted.mono hk, mode, hk hf⟩

/-! ## The absolute path of a place -/

theorem segments_flatMap {p : Place} (hp : ∀ name ∈ p, Proper name) {name : Name}
    (hn : Path.slash ∉ name) :
    Path.segments (name ++ p.flatMap (Path.slash :: ·)) = name :: p := by
  induction p generalizing name with
  | nil => simpa [Path.segments] using List.splitOn_eq_singleton hn
  | cons next p ih =>
    have hnext := hp next List.mem_cons_self
    rw [List.flatMap_cons, List.cons_append, Path.segments,
      List.splitOn_append_cons_self_of_not_mem hn]
    exact congrArg (name :: ·) (ih (fun n hm => hp n (List.mem_cons_of_mem _ hm)) hnext.whole)

theorem filter_segments_pathOf {p : Place} {name : Name} (hp : ∀ n ∈ p ++ [name], Proper n) :
    (Path.segments (pathOf (p ++ [name]))).filter (fun s => !s.isEmpty) = p ++ [name] := by
  have hs : Path.segments ((p ++ [name]).flatMap (Path.slash :: ·)) = [] :: (p ++ [name]) :=
    segments_flatMap hp List.not_mem_nil
  have hne : (p ++ [name]).isEmpty = false := by simp
  rw [pathOf, hne, if_neg (by simp), hs, List.filter_cons_of_neg (by simp), List.filter_eq_self]
  intro s hm
  have := (hp s hm).filled
  simpa [slashName] using this

theorem getLast_pathOf {p : Place} {name : Name} (hn : Proper name) :
    (pathOf (p ++ [name])).getLast? ≠ some Path.slash := by
  have hne : (p ++ [name]).isEmpty = false := by simp
  obtain ⟨front, last, rfl⟩ : ∃ front last, name = front ++ [last] :=
    ⟨name.dropLast, name.getLast hn.filled, (List.dropLast_concat_getLast hn.filled).symm⟩
  have hw := hn.whole
  rw [pathOf, hne, if_neg (by simp), List.flatMap_append]
  simp only [List.flatMap_cons, List.flatMap_nil, List.append_nil, ← List.cons_append,
    ← List.append_assoc, List.getLast?_concat, ne_eq, Option.some.injEq]
  intro heq
  subst heq
  simp at hw

theorem names_pathOf {p : Place} {name : Name} (hp : ∀ n ∈ p ++ [name], Proper n) :
    names (pathOf (p ++ [name])) = p ++ [name] := by
  have hl := getLast_pathOf (p := p) (hp name (by simp))
  simp only [names, filter_segments_pathOf hp]
  exact if_neg (by simpa using hl)

theorem isAbsolute_pathOf (p : Place) : Path.isAbsolute (pathOf p) = true := by
  cases p <;> simp [pathOf, Path.isAbsolute]

/-- A walk over proper names through folders, up to something but a link, goes on where the names
say, if it gets there. -/
theorem descend_append {v : Volume} {a b : Place} {goal : Goal}
    (folder : ∀ q, q <+: a ++ b → q ≠ a ++ b → ∃ mode, v.entry? q = some (.folder mode))
    (bare : ∀ target, v.entry? (a ++ b) ≠ some (.link target))
    (proper : ∀ n ∈ b, Proper n) (ns : List Name) :
    (∃ cause, v.descend goal a (b ++ ns) = .failed cause) ∨
      v.descend goal a (b ++ ns) = v.descend goal (a ++ b) ns := by
  induction b generalizing a with
  | nil => exact .inr (by simp)
  | cons next b ih =>
    by_cases hf : ∃ cause, v.descend goal a (next :: b ++ ns) = .failed cause
    · exact .inl hf
    have hn := proper next List.mem_cons_self
    obtain ⟨mode, ha, rfl | ⟨hs, rfl | rfl | ⟨hl, hg⟩⟩⟩ :=
      cases_of_descend fun cause h => hf ⟨cause, h⟩
    · exact absurd rfl hn.filled
    · exact absurd rfl hn.noDot
    · exact absurd rfl hn.noUp
    have hg' : ¬(goal = .file ∧ b ++ ns = [slashName]) := hg
    have heq : a ++ next :: b = a ++ [next] ++ b := by simp
    have hlast : (∀ mode, v.entry? (a ++ [next]) ≠ some (.folder mode)) → b = [] := by
      intro hne
      cases b with
      | nil => rfl
      | cons more b =>
        obtain ⟨mode, he⟩ := folder (a ++ [next]) (by simp) (by simp)
        exact absurd he (hne mode)
    rw [heq] at folder bare ⊢
    have hrest := ih folder bare fun n hm => proper n (List.mem_cons_of_mem _ hm)
    rw [List.cons_append, descend_lookUp hl hg'] at hf ⊢
    cases he : v.entry? (a ++ [next]) with
    | none =>
      obtain rfl := hlast (by simp [he])
      cases ns with
      | nil => exact .inr (by simp [descend, he])
      | cons => simp [he] at hf
    | some e =>
      cases e with
      | folder mode => exact hrest
      | file content mode => exact hrest
      | link target =>
        obtain rfl := hlast (by simp [he])
        exact absurd (by simpa using he) (bare target)

/-- A walk over proper names through folders ends where the names say, if it gets there. -/
theorem descend_through {v : Volume} {a b : Place} {name : Name} {goal : Goal}
    (folder : ∀ q, q <+: a ++ b → ∃ mode, v.entry? q = some (.folder mode))
    (proper : ∀ n ∈ b ++ [name], Proper n)
    (last : goal = .entry ∨ ∀ target, v.entry? (a ++ b ++ [name]) ≠ some (.link target)) :
    (∃ cause, v.descend goal a (b ++ [name]) = .failed cause) ∨
      ∃ e, v.descend goal a (b ++ [name]) = .landed (a ++ b ++ [name]) e := by
  have bare : ∀ target, v.entry? (a ++ b) ≠ some (.link target) := by
    obtain ⟨mode, he⟩ := folder _ (List.prefix_refl _)
    simp [he]
  rcases descend_append (fun q hq _ => folder q hq) bare
      (fun n hm => proper n (List.mem_append_left _ hm)) [name] with hf | hd
  · exact .inl hf
  rw [hd]
  by_cases hf : ∃ cause, v.descend goal (a ++ b) [name] = .failed cause
  · exact .inl hf
  refine .inr ?_
  have hn := proper name (by simp)
  obtain ⟨mode, ha, rfl | ⟨hs, rfl | rfl | ⟨hl, hg⟩⟩⟩ :=
    cases_of_descend fun cause h => hf ⟨cause, h⟩
  · exact absurd rfl hn.filled
  · exact absurd rfl hn.noDot
  · exact absurd rfl hn.noUp
  · rw [descend_lookUp hl hg]
    split
    · exact ⟨none, rfl⟩
    · rename_i target ht
      rcases last with rfl | hne
      · exact ⟨_, rfl⟩
      · exact absurd ht (hne target)
    · exact ⟨_, rfl⟩

/-- The absolute path of a rooted place is looked up at that place. -/
theorem place_of_locate_pathOf {v : Volume} {p q : Place} {name : Name} {goal : Goal}
    {e : Option Entry} (hr : v.Rooted (p ++ [name]))
    (last : goal = .entry ∨ ∀ target, v.entry? (p ++ [name]) ≠ some (.link target))
    (h : v.locate goal (pathOf (p ++ [name])) = .ok (q, e)) : q = p ++ [name] := by
  unfold locate at h
  split at h
  · cases h
  · split at h
    · rename_i found hw
      cases h
      rw [origin, isAbsolute_pathOf, if_pos rfl, names_pathOf hr.proper] at hw
      exact place_of_chase (descend_through (a := []) (fun q hq => hr.inner hq) hr.proper
        (by simpa using last)) hw
    · cases h

/-- A walk from the root over the names of a folder that folders lead to ends at that folder. -/
theorem place_of_walk {v : Volume} {p q : Place} {e : Option Entry}
    (folder : ∀ r, r <+: p → ∃ mode, v.entry? r = some (.folder mode))
    (proper : ∀ n ∈ p, Proper n) (h : v.walk .target [] p = .ok (q, e)) : q = p := by
  rcases List.eq_nil_or_concat p with rfl | ⟨before, name, hp⟩
  · exact place_of_chase (.inr ⟨_, rfl⟩) h
  · rw [List.concat_eq_append] at hp
    subst hp
    obtain ⟨mode, he⟩ := folder (before ++ [name]) (List.prefix_refl _)
    exact place_of_chase (descend_through (a := [])
      (fun r hr => folder r (hr.trans (List.prefix_append before [name]))) proper
      (.inr (by simp [he]))) h

end Volume

end BlockPurge
