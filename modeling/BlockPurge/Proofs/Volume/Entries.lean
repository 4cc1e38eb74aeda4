import BlockPurge.Proofs.Keyed
import BlockPurge.Volume.Replace

/-!
# What stands where after a change

Every change of a volume comes down to entries put at places and dropped from them. The module says
what a place holds after either, and names the two relations under which later modules carry facts
from one volume to another: `Keeps` lets files change their content, `Extends` keeps them as they
are and lets new entries appear. The root is always a folder, whatever the entries say.
-/
namespace BlockPurge.Volume

@[simp] theorem entry?_root (v : Volume) : v.entry? [] = some (.folder 0o755) := rfl

theorem entry?_of_ne_root (v : Volume) {p : Place} (hp : p ≠ []) :
    v.entry? p = v.entries.lookup p := by
  unfold entry?
  simp [hp]

@[simp] theorem drop_here (v : Volume) (p : Place) : (v.drop p).here = v.here := rfl
@[simp] theorem drop_superuser (v : Volume) (p : Place) :
    (v.drop p).superuser = v.superuser := rfl
@[simp] theorem put_here (v : Volume) (p : Place) (e : Entry) : (v.put p e).here = v.here := rfl
@[simp] theorem put_superuser (v : Volume) (p : Place) (e : Entry) :
    (v.put p e).superuser = v.superuser := rfl

theorem entry?_drop (v : Volume) (p q : Place) (hp : p ≠ []) :
    entry? (v.drop p) q = if q = p then none else v.entry? q := by
  by_cases hq : q = []
  · subst hq
    simp [Ne.symm hp]
  · rw [entry?_of_ne_root _ hq, entry?_of_ne_root _ hq]
    exact lookup_dropped v.entries p q

theorem entry?_put (v : Volume) (p q : Place) (e : Entry) (hp : p ≠ []) :
    entry? (v.put p e) q = if q = p then some e else v.entry? q := by
  by_cases hq : q = []
  · subst hq
    simp [Ne.symm hp]
  · rw [entry?_of_ne_root _ hq]
    by_cases h : q = p
    · simp [put, h]
    · have hd := entry?_drop v p q hp
      rw [entry?_of_ne_root _ hq] at hd
      simp only [put, List.lookup_cons, beq_eq_false_iff_ne.mpr h, h, if_false] at hd ⊢
      exact hd

theorem drop_of_free {v : Volume} {p : Place} (hp : p ≠ []) (free : v.entry? p = none) :
    v.drop p = v := by
  rw [entry?_of_ne_root v hp, List.lookup_eq_none_iff] at free
  have hall : v.entries.filter (·.1 != p) = v.entries := by
    refine List.filter_eq_self.mpr fun entry hm => ?_
    exact bne_iff_ne.mpr (bne_iff_ne.mp (free entry hm)).symm
  rw [drop, hall]

@[simp] theorem drop_put (v : Volume) (p : Place) (e : Entry) : (v.put p e).drop p = v.drop p := by
  simp [put, drop]

@[simp] theorem put_put (v : Volume) (p : Place) (e f : Entry) :
    (v.put p e).put p f = v.put p f := by
  rw [put, drop_put, put]
  rfl

/-- What may be done with an entry depends on the user alone. -/
theorem allows_congr {v w : Volume} (h : w.superuser = v.superuser) (mode : Mode)
    (access : Access) :
    w.allows mode access = v.allows mode access := by
  simp [allows, h]

/-- One volume has the folders and files of another, whatever the files hold. -/
structure KeepsFiles (v w : Volume) : Prop where
  here : w.here = v.here
  superuser : w.superuser = v.superuser
  folder : ∀ {p mode}, v.entry? p = some (.folder mode) → w.entry? p = some (.folder mode)
  file : ∀ {p content mode}, v.entry? p = some (.file content mode) →
    ∃ content' mode', w.entry? p = some (.file content' mode')

/-- One volume has the folders, files and links of another, whatever the files hold. -/
structure Keeps (v w : Volume) : Prop extends KeepsFiles v w where
  link : ∀ {p target}, v.entry? p = some (.link target) → w.entry? p = some (.link target)

/-- One volume holds exactly what another does, and perhaps more. -/
structure Extends (v w : Volume) : Prop where
  here : w.here = v.here
  superuser : w.superuser = v.superuser
  entry : ∀ {p e}, v.entry? p = some e → w.entry? p = some e

theorem Extends.refl (v : Volume) : v.Extends v :=
  ⟨rfl, rfl, id⟩

theorem Extends.keeps {v w : Volume} (h : v.Extends w) : v.Keeps w :=
  ⟨⟨h.here, h.superuser, h.entry, fun he => ⟨_, _, h.entry he⟩⟩, h.entry⟩

/-- A volume that differs from another in a file at one place alone, where a file stood or nothing,
has the folders, files and links of the other. -/
theorem keeps_of_file {v w : Volume} {p : Place} {content : Bytes} {mode : Mode}
    (here : w.here = v.here) (superuser : w.superuser = v.superuser)
    (entry : ∀ q, w.entry? q = if q = p then some (.file content mode) else v.entry? q)
    (old : v.entry? p = none ∨ ∃ content' mode', v.entry? p = some (.file content' mode')) :
    v.Keeps w where
  here := here
  superuser := superuser
  folder {q m} hq := by
    rw [entry, if_neg ?_]
    · exact hq
    · intro heq
      subst heq
      simp [hq] at old
  link {q t} hq := by
    rw [entry, if_neg ?_]
    · exact hq
    · intro heq
      subst heq
      simp [hq] at old
  file {q c m} hq := by
    rw [entry]
    split
    · exact ⟨content, mode, rfl⟩
    · exact ⟨c, m, hq⟩

end BlockPurge.Volume
