import BlockPurge.Proofs.Volume.Entries
import BlockPurge.Volume.Access

/-!
# Where a path leads

`Reaches` derives a walk name by name, links followed where they are met, and counts the links. A
walk with enough links to spend ends where the derivation says, and every walk that ends at an entry
has a derivation; so a walk can be cut in two, and what only adds to a volume leaves it as it is.
The last part reads files through this relation: a path that a file can be read at leads to one
place.
-/
namespace BlockPurge.Volume

/-- A name is looked up in a folder: the folder may be searched and is still there, and the name is
neither a step in place nor one up. -/
structure LooksUp (v : Volume) (p : Place) (name : Name) : Prop where
  folder : ∃ mode, v.entry? p = some (.folder mode) ∧ v.allows mode .search = true
  plain : name ≠ slashName ∧ name ≠ [Path.dot] ∧ name ≠ [Path.dot, Path.dot]
  present : isRemoved p = false
  short : name.length ≤ longestName

/-- A name leads from a folder to a place, no link being met. -/
inductive Moves (v : Volume) : Place → Name → Place → Prop
  | slash {p : Place} {mode : Mode} : v.entry? p = some (.folder mode) → Moves v p slashName p
  | dot {p : Place} {mode : Mode} : v.entry? p = some (.folder mode) →
      v.allows mode .search = true → Moves v p [Path.dot] p
  | up {p : Place} {mode : Mode} : v.entry? p = some (.folder mode) →
      v.allows mode .search = true → Moves v p [Path.dot, Path.dot] p.dropLast
  | enter {p : Place} {name : Name} {e : Entry} : v.LooksUp p name →
      v.entry? (p ++ [name]) = some e → (∀ target, e ≠ .link target) →
      Moves v p name (p ++ [name])

/-- Names lead from a place to another, the given number of links being followed. -/
inductive Reaches (v : Volume) : Place → List Name → Nat → Place → Prop
  | done (p : Place) : Reaches v p [] 0 p
  | move {p r q : Place} {name : Name} {rest : List Name} {n : Nat} :
      v.Moves p name r → Reaches v r rest n q → Reaches v p (name :: rest) n q
  | follow {p q : Place} {name : Name} {target : Bytes} {rest : List Name} {n : Nat} :
      v.LooksUp p name → v.entry? (p ++ [name]) = some (.link target) →
      Reaches v (origin p target) (names target ++ rest) n q → Reaches v p (name :: rest) (n + 1) q

/-! ## One name of a walk -/

theorem descend_slash {v : Volume} {p : Place} {mode : Mode} (goal : Goal) (rest : List Name)
    (h : v.entry? p = some (.folder mode)) :
    v.descend goal p (slashName :: rest) = v.descend goal p rest := by
  rw [descend, h]
  simp only [if_true]

theorem descend_dot {v : Volume} {p : Place} {mode : Mode} (goal : Goal) (rest : List Name)
    (h : v.entry? p = some (.folder mode)) (hs : v.allows mode .search = true) :
    v.descend goal p ([Path.dot] :: rest) = v.descend goal p rest := by
  rw [descend, h]
  simp [hs, slashName]

theorem descend_up {v : Volume} {p : Place} {mode : Mode} (goal : Goal) (rest : List Name)
    (h : v.entry? p = some (.folder mode)) (hs : v.allows mode .search = true) :
    v.descend goal p ([Path.dot, Path.dot] :: rest) = v.descend goal p.dropLast rest := by
  rw [descend, h]
  simp [hs, slashName]

/-- What becomes of a name that is looked up. -/
theorem descend_lookUp {v : Volume} {p : Place} {name : Name} {goal : Goal} {rest : List Name}
    (h : v.LooksUp p name) (hg : ¬(goal = .file ∧ rest = [slashName])) :
    v.descend goal p (name :: rest) =
      match v.entry? (p ++ [name]) with
      | none => if rest.isEmpty then .landed (p ++ [name]) none else .failed .notFound
      | some (.link target) =>
        if rest.isEmpty ∧ goal = .entry then .landed (p ++ [name]) (some (.link target))
        else .link p target rest
      | some _ => v.descend goal (p ++ [name]) rest := by
  obtain ⟨⟨mode, hp, hs⟩, ⟨h₁, h₂, h₃⟩, hr, hl⟩ := h
  rw [descend, hp]
  cases he : v.entry? (p ++ [name]) with
  | none => simp [h₁, h₂, h₃, hs, hg, hr, Nat.not_lt.mpr hl]
  | some e => cases e <;> simp [h₁, h₂, h₃, hs, hg, hr, Nat.not_lt.mpr hl]

/-- A walk that gets past a name stays in its folder, goes up, or looks the name up. -/
theorem cases_of_descend {v : Volume} {p : Place} {name : Name} {goal : Goal} {rest : List Name}
    (h : ∀ cause, v.descend goal p (name :: rest) ≠ .failed cause) :
    ∃ mode, v.entry? p = some (.folder mode) ∧
      (name = slashName ∨ v.allows mode .search = true ∧
        (name = [Path.dot] ∨ name = [Path.dot, Path.dot] ∨
          v.LooksUp p name ∧ ¬(goal = .file ∧ rest = [slashName]))) := by
  rw [descend] at h
  split at h
  case h_1 => exact absurd rfl (h _)
  case h_2 => exact absurd rfl (h _)
  case h_3 => exact absurd rfl (h _)
  case h_4 mode hp =>
    refine ⟨mode, hp, ?_⟩
    by_cases h₁ : name = slashName
    · exact .inl h₁
    cases hs : v.allows mode .search with
    | false => simp [h₁, hs] at h
    | true =>
      refine .inr ⟨rfl, ?_⟩
      by_cases h₂ : name = [Path.dot]
      · exact .inl h₂
      by_cases h₃ : name = [Path.dot, Path.dot]
      · exact .inr (.inl h₃)
      by_cases hg : goal = .file ∧ rest = [slashName]
      · simp [h₁, h₂, h₃, hs, hg] at h
      cases hr : isRemoved p with
      | true => simp [h₁, h₂, h₃, hs, hg, hr] at h
      | false =>
        by_cases hl : longestName < name.length
        · simp [h₁, h₂, h₃, hs, hg, hr, hl] at h
        · exact .inr (.inr ⟨⟨⟨mode, hp, hs⟩, ⟨h₁, h₂, h₃⟩, hr, Nat.not_lt.mp hl⟩, hg⟩)

/-- A move is made by every walk that follows links at its end. -/
theorem Moves.descend_eq {v : Volume} {p r : Place} {name : Name} (h : v.Moves p name r)
    (rest : List Name) : v.descend .target p (name :: rest) = v.descend .target r rest := by
  cases h with
  | slash hp => exact descend_slash _ rest hp
  | dot hp hs => exact descend_dot _ rest hp hs
  | up hp hs => exact descend_up _ rest hp hs
  | @enter name e hl hn hne =>
    rw [descend_lookUp hl (by simp), hn]
    cases e with
    | link target => exact absurd rfl (hne target)
    | folder mode => rfl
    | file content mode => rfl

/-- A walk that gets past a name moves on, comes to a link, or ends where nothing stands. -/
theorem moves_of_descend {v : Volume} {p : Place} {name : Name} {rest : List Name}
    (h : ∀ cause, v.descend .target p (name :: rest) ≠ .failed cause) :
    (∃ r, v.Moves p name r) ∨ v.LooksUp p name ∧
      ((∃ target, v.entry? (p ++ [name]) = some (.link target) ∧
          v.descend .target p (name :: rest) = .link p target rest) ∨
        rest = [] ∧ v.descend .target p (name :: rest) = .landed (p ++ [name]) none) := by
  obtain ⟨mode, hp, rfl | ⟨hs, rfl | rfl | ⟨hl, hg⟩⟩⟩ := cases_of_descend h
  · exact .inl ⟨p, .slash hp⟩
  · exact .inl ⟨p, .dot hp hs⟩
  · exact .inl ⟨p.dropLast, .up hp hs⟩
  · rw [descend_lookUp hl hg] at h ⊢
    split at h
    · rename_i hn
      split at h
      · rename_i hr
        exact .inr ⟨hl, .inr ⟨List.isEmpty_iff.mp hr, if_pos hr⟩⟩
      · exact absurd rfl (h _)
    · rename_i target hn
      exact .inr ⟨hl, .inl ⟨target, hn, by simp⟩⟩
    · rename_i e hne hn
      exact .inl ⟨_, .enter hl hn fun target he => hne target he⟩

theorem LooksUp.keeps {v w : Volume} {p : Place} {name : Name} (h : v.LooksUp p name)
    (hk : v.KeepsFiles w) : w.LooksUp p name where
  folder := by
    obtain ⟨mode, hp, hs⟩ := h.folder
    exact ⟨mode, hk.folder hp, (allows_congr hk.superuser mode .search).trans hs⟩
  plain := h.plain
  present := h.present
  short := h.short

theorem Moves.keeps {v w : Volume} {p r : Place} {name : Name} (h : v.Moves p name r)
    (hk : v.KeepsFiles w) : w.Moves p name r := by
  cases h with
  | slash hp => exact .slash (hk.folder hp)
  | dot hp hs => exact .dot (hk.folder hp) ((allows_congr hk.superuser _ .search).trans hs)
  | up hp hs => exact .up (hk.folder hp) ((allows_congr hk.superuser _ .search).trans hs)
  | @enter name e hl hn hne =>
    cases e with
    | folder mode => exact .enter (hl.keeps hk) (hk.folder hn) (by simp)
    | link target => exact absurd rfl (hne target)
    | file content mode =>
      obtain ⟨content', mode', hn'⟩ := hk.file hn
      exact .enter (hl.keeps hk) hn' (by simp)

/-! ## Walks and derivations -/

/-- A walk that lands says what stands where it lands. -/
theorem entry_of_descend {v : Volume} {goal : Goal} {p q : Place} {ns : List Name}
    {e : Option Entry} (h : v.descend goal p ns = .landed q e) : v.entry? q = e := by
  induction ns generalizing p with
  | nil =>
    simp only [descend, Stop.landed.injEq] at h
    exact h.1 ▸ h.2
  | cons name rest ih =>
    have goesOn : ∀ cause, v.descend goal p (name :: rest) ≠ .failed cause := by simp [h]
    obtain ⟨mode, hp, rfl | ⟨hs, rfl | rfl | ⟨hl, hg⟩⟩⟩ := cases_of_descend goesOn
    · exact ih (descend_slash goal rest hp ▸ h)
    · exact ih (descend_dot goal rest hp hs ▸ h)
    · exact ih (descend_up goal rest hp hs ▸ h)
    · rw [descend_lookUp hl hg] at h
      split at h
      · rename_i hn
        split at h <;> cases h
        exact hn
      · rename_i hn
        split at h <;> cases h
        exact hn
      · exact ih h

theorem chase_landed {advance : Place → List Name → Stop} {b : Nat} {p q : Place} {ns : List Name}
    {e : Option Entry} (h : advance p ns = .landed q e) : chase advance b p ns = .ok (q, e) := by
  unfold chase
  simp [h]

theorem chase_link {advance : Place → List Name → Stop} {b : Nat} {p f : Place}
    {ns rest : List Name}
    {target : Bytes} (h : advance p ns = .link f target rest) :
    chase advance (b + 1) p ns = chase advance b (origin f target) (names target ++ rest) := by
  conv => lhs; unfold chase
  simp [h]

theorem chase_congr {advance : Place → List Name → Stop} {b : Nat} {p p' : Place}
    {ns ns' : List Name} (h : advance p ns = advance p' ns') :
    chase advance b p ns = chase advance b p' ns' := by
  unfold chase
  simp [h]

/-- A walk that ends lands at once, or follows a link and goes on with one link less to spend. -/
theorem cases_of_chase {advance : Place → List Name → Stop} {b : Nat} {p q : Place}
    {ns : List Name} {e : Option Entry} (h : chase advance b p ns = .ok (q, e)) :
    advance p ns = .landed q e ∨
      ∃ c f target rest, b = c + 1 ∧ advance p ns = .link f target rest ∧
        chase advance c (origin f target) (names target ++ rest) = .ok (q, e) := by
  unfold chase at h
  split at h
  · rename_i ha
    cases h
    exact .inl ha
  · cases h
  · cases h
  · rename_i f target rest c ha
    exact .inr ⟨c, f, target, rest, rfl, ha, h⟩

/-- A walk that ends somewhere gets past its first name. -/
theorem advance_of_chase {advance : Place → List Name → Stop} {b : Nat} {p q : Place}
    {ns : List Name} {e : Option Entry} (h : chase advance b p ns = .ok (q, e)) :
    ∀ cause, advance p ns ≠ .failed cause := by
  intro cause hf
  rcases cases_of_chase h with hl | ⟨c, f, target, rest, -, hl, -⟩ <;> simp [hf] at hl

/-- A walk that meets no link ends where it lands. -/
theorem place_of_chase {advance : Place → List Name → Stop} {b : Nat} {p q t : Place}
    {ns : List Name} {e : Option Entry}
    (hd : (∃ cause, advance p ns = .failed cause) ∨ ∃ f, advance p ns = .landed q f)
    (h : chase advance b p ns = .ok (t, e)) : t = q := by
  rcases cases_of_chase h with hl | ⟨c, f, target, rest, -, hl, -⟩
  · rcases hd with ⟨cause, hd⟩ | ⟨f, hd⟩
    · simp [hd] at hl
    · exact (Stop.landed.inj (hl.symm.trans hd)).1
  · rcases hd with ⟨cause, hd⟩ | ⟨f, hd⟩ <;> simp [hd] at hl

/-- What holds of the walks that land at an end, and of a walk that comes to a link if it holds of
the walk from there, holds of every walk that ends there. -/
@[elab_as_elim]
theorem chase_induct {advance : Place → List Name → Stop} {q : Place} {e : Option Entry}
    {motive : Nat → Place → List Name → Prop} {b : Nat} {p : Place} {ns : List Name}
    (h : chase advance b p ns = .ok (q, e))
    (landed : ∀ b p ns, advance p ns = .landed q e → motive b p ns)
    (link : ∀ b p ns f target rest, advance p ns = .link f target rest →
      motive b (origin f target) (names target ++ rest) → motive (b + 1) p ns) :
    motive b p ns := by
  induction b generalizing p ns with
  | zero =>
    rcases cases_of_chase h with hl | ⟨c, f, target, rest, hb, -, -⟩
    · exact landed 0 p ns hl
    · cases hb
  | succ b ih =>
    rcases cases_of_chase h with hl | ⟨c, f, target, rest, hb, hl, hc⟩
    · exact landed (b + 1) p ns hl
    · cases hb
      exact link b p ns f target rest hl (ih hc)

theorem entry_of_chase {v : Volume} {goal : Goal} {b : Nat} {p q : Place} {ns : List Name}
    {e : Option Entry} (h : chase (v.descend goal) b p ns = .ok (q, e)) : v.entry? q = e := by
  refine chase_induct h ?_ ?_
  · intro b p ns hl
    exact entry_of_descend hl
  · intro b p ns f target rest _ ih
    exact ih

theorem entry_of_locate {v : Volume} {goal : Goal} {path : Bytes} {q : Place} {e : Option Entry}
    (h : v.locate goal path = .ok (q, e)) : v.entry? q = e := by
  unfold locate at h
  split at h
  · cases h
  · split at h
    · rename_i hw
      cases h
      exact entry_of_chase hw
    · cases h

/-- A walk that does not end at a link goes the same way when a link at its end would be followed.
-/
theorem descend_target {v : Volume} {goal : Goal} {p : Place} {ns : List Name}
    (hf : ∀ cause, v.descend goal p ns ≠ .failed cause)
    (hl : ∀ q target, v.descend goal p ns ≠ .landed q (some (.link target))) :
    v.descend .target p ns = v.descend goal p ns := by
  induction ns generalizing p with
  | nil => rfl
  | cons name rest ih =>
    obtain ⟨mode, hp, rfl | ⟨hs, rfl | rfl | ⟨hlook, hg⟩⟩⟩ := cases_of_descend hf
    · rw [descend_slash goal rest hp] at hf hl ⊢
      rw [descend_slash .target rest hp, ih hf hl]
    · rw [descend_dot goal rest hp hs] at hf hl ⊢
      rw [descend_dot .target rest hp hs, ih hf hl]
    · rw [descend_up goal rest hp hs] at hf hl ⊢
      rw [descend_up .target rest hp hs, ih hf hl]
    · rw [descend_lookUp hlook hg] at hf hl ⊢
      rw [descend_lookUp hlook (by simp)]
      split
      · rfl
      · rename_i target hn
        simp only [hn] at hl
        rw [if_neg (by simp), if_neg fun hend => ?_]
        rw [if_pos hend] at hl
        exact hl _ _ rfl
      · rename_i e hne hn
        rw [hn] at hf hl
        cases e with
        | link target => exact absurd rfl (hne target)
        | folder mode => exact ih hf hl
        | file content mode => exact ih hf hl

theorem chase_target {v : Volume} {goal : Goal} {b : Nat} {p q : Place} {ns : List Name}
    {e : Option Entry} (hne : ∀ target, e ≠ some (.link target))
    (h : chase (v.descend goal) b p ns = .ok (q, e)) :
    chase (v.descend .target) b p ns = .ok (q, e) := by
  refine chase_induct h ?_ ?_
  · intro b p ns hl
    refine chase_landed ((descend_target (by simp [hl]) fun r target heq => ?_).trans hl)
    exact hne target (Stop.landed.inj (hl.symm.trans heq)).2
  · intro b p ns f target rest hd ih
    rwa [chase_link ((descend_target (by simp [hd]) (by simp [hd])).trans hd)]

/-- A walk is derived from where it lands, or from the link that it comes to, back to its start, in
every volume that keeps what the walk met and has something but a link where it lands. -/
theorem descend_reaches {v w : Volume} {p : Place} {ns : List Name} (hk : v.Keeps w) :
    (∀ {q e}, v.descend .target p ns = .landed q e →
      (e = none → ∃ f, w.entry? q = some f ∧ ∀ target, f ≠ .link target) → w.Reaches p ns 0 q) ∧
    (∀ {f target rest n q}, v.descend .target p ns = .link f target rest →
      w.Reaches (origin f target) (names target ++ rest) n q → w.Reaches p ns (n + 1) q) := by
  induction ns generalizing p with
  | nil =>
    constructor
    · intro q e h _
      simp only [descend, Stop.landed.injEq] at h
      exact h.1 ▸ .done p
    · intro f target rest n q h
      simp [descend] at h
  | cons name rest ih =>
    by_cases hf : ∃ cause, v.descend .target p (name :: rest) = .failed cause
    · obtain ⟨cause, hf⟩ := hf
      simp [hf]
    rcases moves_of_descend fun cause h => hf ⟨cause, h⟩ with
        ⟨r, hm⟩ | ⟨hl, ⟨target, hn, hd⟩ | ⟨rfl, hd⟩⟩
    · rw [hm.descend_eq]
      have hw := hm.keeps hk.toKeepsFiles
      exact ⟨fun h he => .move hw (ih.1 h he), fun h hr => .move hw (ih.2 h hr)⟩
    · rw [hd]
      refine ⟨by simp, ?_⟩
      intro _ _ _ _ _ h hr
      obtain ⟨rfl, rfl, rfl⟩ := Stop.link.inj h
      exact .follow (hl.keeps hk.toKeepsFiles) (hk.link hn) hr
    · simp only [hd, Stop.landed.injEq, reduceCtorEq, false_implies, implies_true, and_true]
      rintro q e ⟨rfl, rfl⟩ he
      obtain ⟨f, hn, hne⟩ := he rfl
      exact .move (.enter (hl.keeps hk.toKeepsFiles) hn hne) (.done _)

/-- A walk that ends has a derivation with no more links than it may follow. -/
theorem reaches_of_walk {v w : Volume} {b : Nat} {p q : Place} {ns : List Name} {e : Option Entry}
    (hk : v.Keeps w) (he : e = none → ∃ f, w.entry? q = some f ∧ ∀ target, f ≠ .link target)
    (h : chase (v.descend .target) b p ns = .ok (q, e)) : ∃ n ≤ b, w.Reaches p ns n q := by
  refine chase_induct h ?_ ?_
  · intro b p ns hl
    exact ⟨0, Nat.zero_le b, (descend_reaches hk).1 hl he⟩
  · intro b p ns f target rest hd ih
    obtain ⟨n, hn, hr⟩ := ih
    exact ⟨n + 1, Nat.succ_le_succ hn, (descend_reaches hk).2 hd hr⟩

theorem reaches_of_chase {v : Volume} {b : Nat} {p q : Place} {ns : List Name} {e : Entry}
    (h : chase (v.descend .target) b p ns = .ok (q, some e)) : ∃ n ≤ b, v.Reaches p ns n q :=
  reaches_of_walk (Extends.refl v).keeps (by simp) h

/-- A walk goes on from where its first names lead, with fewer links to spend. -/
theorem Reaches.chase_append {v : Volume} {p r : Place} {as : List Name} {k : Nat}
    (h : v.Reaches p as k r) (bs : List Name) {b : Nat} (hb : k ≤ b) :
    chase (v.descend .target) b p (as ++ bs) = chase (v.descend .target) (b - k) r bs := by
  induction h generalizing b with
  | done p => rfl
  | move hm _ ih => exact (chase_congr (hm.descend_eq _)).trans (ih hb)
  | @follow p q name target rest n hl hn _ ih =>
    obtain ⟨c, rfl⟩ : ∃ c, b = c + 1 := ⟨b - 1, by omega⟩
    have hlink : v.descend .target p (name :: (rest ++ bs)) = .link p target (rest ++ bs) := by
      rw [descend_lookUp hl (by simp), hn]
      simp
    rw [List.cons_append, chase_link hlink, ← List.append_assoc, ih (by omega),
      Nat.add_sub_add_right]

/-- A walk with enough links to spend ends where the derivation says. -/
theorem Reaches.chase_eq {v : Volume} {p q : Place} {ns : List Name} {n : Nat}
    (h : v.Reaches p ns n q) {b : Nat} (hb : n ≤ b) :
    chase (v.descend .target) b p ns = .ok (q, v.entry? q) := by
  rw [← List.append_nil ns, h.chase_append [] hb]
  exact chase_landed rfl

/-- Names are walked from a folder. -/
theorem Reaches.start {v : Volume} {p q : Place} {ns : List Name} {n : Nat}
    (h : v.Reaches p ns n q) : ns = [] ∧ p = q ∨ ∃ mode, v.entry? p = some (.folder mode) := by
  cases h with
  | done => exact .inl ⟨rfl, rfl⟩
  | move hm _ =>
    cases hm with
    | slash hp => exact .inr ⟨_, hp⟩
    | dot hp => exact .inr ⟨_, hp⟩
    | up hp => exact .inr ⟨_, hp⟩
    | enter hl => exact .inr ⟨_, hl.folder.choose_spec.1⟩
  | follow hl => exact .inr ⟨_, hl.folder.choose_spec.1⟩

theorem Reaches.unique {v : Volume} {p q q' : Place} {ns : List Name} {n n' : Nat}
    (h : v.Reaches p ns n q) (h' : v.Reaches p ns n' q') : q = q' := by
  have hq := h.chase_eq (Nat.le_max_left n n')
  rw [h'.chase_eq (Nat.le_max_right n n')] at hq
  exact (Prod.mk.inj (Except.ok.inj hq)).1.symm

theorem Reaches.append {v : Volume} {p r q : Place} {as bs : List Name} {k l : Nat}
    (h : v.Reaches p as k r) (h' : v.Reaches r bs l q) : v.Reaches p (as ++ bs) (k + l) q := by
  induction h with
  | done p => simpa using h'
  | move hm _ ih => exact .move hm (ih h')
  | @follow p q name target rest n hl hn _ ih =>
    have hr := ih h'
    rw [List.append_assoc] at hr
    rw [Nat.add_right_comm]
    exact .follow hl hn hr

/-- A walk over two rows of names passes the end of the first. -/
theorem Reaches.split {v : Volume} {p q : Place} {as bs : List Name} {n : Nat}
    (h : v.Reaches p (as ++ bs) n q) :
    ∃ r k l, v.Reaches p as k r ∧ v.Reaches r bs l q ∧ k + l = n := by
  generalize hns : as ++ bs = ns at h
  induction h generalizing as with
  | done p =>
    obtain ⟨rfl, rfl⟩ := List.append_eq_nil_iff.mp hns
    exact ⟨p, 0, 0, .done p, .done p, rfl⟩
  | @move p r q name rest n hm hr ih =>
    cases as with
    | nil =>
      simp only [List.nil_append] at hns
      exact ⟨p, 0, n, .done p, hns ▸ .move hm hr, Nat.zero_add n⟩
    | cons first as =>
      obtain ⟨rfl, rfl⟩ := List.cons.inj hns
      obtain ⟨r, k, l, h₁, h₂, hkl⟩ := ih rfl
      exact ⟨r, k, l, .move hm h₁, h₂, hkl⟩
  | @follow p q name target rest n hl hn hr ih =>
    cases as with
    | nil =>
      simp only [List.nil_append] at hns
      exact ⟨p, 0, n + 1, .done p, hns ▸ .follow hl hn hr, Nat.zero_add _⟩
    | cons first as =>
      obtain ⟨rfl, rfl⟩ := List.cons.inj hns
      obtain ⟨r, k, l, h₁, h₂, hkl⟩ := ih (List.append_assoc ..)
      exact ⟨r, k + 1, l, .follow hl hn h₁, h₂, by omega⟩

/-! ## Walks in a volume that keeps what another holds -/

theorem Reaches.keeps {v w : Volume} {p q : Place} {ns : List Name} {n : Nat}
    (h : v.Reaches p ns n q) (hk : v.Keeps w) : w.Reaches p ns n q := by
  induction h with
  | done p => exact .done p
  | move hm _ ih => exact .move (hm.keeps hk.toKeepsFiles) ih
  | follow hl hn _ ih => exact .follow (hl.keeps hk.toKeepsFiles) (hk.link hn) ih

/-- A walk for any goal stops where it stopped, if a file stands where it found nothing. -/
theorem descend_keeps {v w : Volume} {goal : Goal} {p : Place} {ns : List Name} (hk : v.Keeps w) :
    (∀ {q e}, v.descend goal p ns = .landed q e →
      (e = none → ∃ content mode, w.entry? q = some (.file content mode)) →
      w.descend goal p ns = .landed q (w.entry? q)) ∧
    (∀ {f target rest}, v.descend goal p ns = .link f target rest →
      w.descend goal p ns = .link f target rest) := by
  induction ns generalizing p with
  | nil =>
    constructor
    · intro q e h _
      simp only [descend, Stop.landed.injEq] at h
      rw [descend, h.1]
    · intro f target rest h
      simp [descend] at h
  | cons name rest ih =>
    by_cases hf : ∃ cause, v.descend goal p (name :: rest) = .failed cause
    · obtain ⟨cause, hf⟩ := hf
      simp [hf]
    obtain ⟨mode, hp, rfl | ⟨hs, rfl | rfl | ⟨hl, hg⟩⟩⟩ :=
      cases_of_descend fun cause h => hf ⟨cause, h⟩
    · rw [descend_slash goal rest hp, descend_slash goal rest (hk.folder hp)]
      exact ih
    · have hs' := (allows_congr hk.superuser mode .search).trans hs
      rw [descend_dot goal rest hp hs, descend_dot goal rest (hk.folder hp) hs']
      exact ih
    · have hs' := (allows_congr hk.superuser mode .search).trans hs
      rw [descend_up goal rest hp hs, descend_up goal rest (hk.folder hp) hs']
      exact ih
    · have hd := descend_lookUp hl hg
      have hd' := descend_lookUp (hl.keeps hk.toKeepsFiles) hg
      cases he : v.entry? (p ++ [name]) with
      | none =>
        by_cases hr : rest = []
        · subst hr
          simp only [he, List.isEmpty_nil, if_true] at hd
          rw [hd]
          refine ⟨?_, by simp⟩
          intro q e h hfile
          cases h
          obtain ⟨content, mode, hw⟩ := hfile rfl
          rw [hd', hw]
          simp [descend, hw]
        · refine absurd ⟨.notFound, ?_⟩ hf
          simpa [he, hr] using hd
      | some e =>
        cases e with
        | link target =>
          simp only [he] at hd
          simp only [hk.link he] at hd'
          rw [hd, hd']
          by_cases hend : rest.isEmpty = true ∧ goal = .entry
          · simp only [if_pos hend]
            refine ⟨?_, by simp⟩
            intro q e h _
            cases h
            rw [hk.link he]
          · simp only [if_neg hend]
            exact ⟨by simp, id⟩
        | folder mode =>
          simp only [he] at hd
          simp only [hk.folder he] at hd'
          rw [hd, hd']
          exact ih
        | file content mode =>
          obtain ⟨content', mode', hw⟩ := hk.file he
          simp only [he] at hd
          simp only [hw] at hd'
          rw [hd, hd']
          exact ih

theorem chase_keeps {v w : Volume} {goal : Goal} {b : Nat} {p q : Place} {ns : List Name}
    {e : Option Entry} (hk : v.Keeps w)
    (he : e = none → ∃ content mode, w.entry? q = some (.file content mode))
    (h : chase (v.descend goal) b p ns = .ok (q, e)) :
    chase (w.descend goal) b p ns = .ok (q, w.entry? q) := by
  refine chase_induct h ?_ ?_
  · intro b p ns hl
    exact chase_landed ((descend_keeps hk).1 hl he)
  · intro b p ns f target rest hd ih
    rwa [chase_link ((descend_keeps hk).2 hd)]

/-! ## Paths -/

theorem acceptable_iff {path : Bytes} :
    acceptable path = .ok () ↔ 0 ∉ path ∧ path ≠ [] ∧ path.length ≤ longestPath := by
  unfold acceptable
  by_cases h₁ : (0 : UInt8) ∈ path
  · simp [h₁]
  by_cases h₂ : path = []
  · simp [h₂]
  by_cases h₃ : longestPath < path.length
  · simp [h₁, h₂, h₃]
  · simp [h₁, h₂, h₃, Nat.le_of_not_lt h₃]

/-- A path leads to a place, links at its end included. -/
structure Leads (v : Volume) (path : Bytes) (q : Place) : Prop where
  acceptable : acceptable path = .ok ()
  reaches : ∃ n ≤ mostLinks, v.Reaches (origin v.here path) (names path) n q

/-- A path leads where it is looked up, in every volume that keeps what is met on the way and has
something but a link there. -/
theorem leads_of_locate_keeps {v w : Volume} {path : Bytes} {q : Place} {e : Option Entry}
    (hk : v.Keeps w) (he : e = none → ∃ f, w.entry? q = some f ∧ ∀ target, f ≠ .link target)
    (h : v.locate .target path = .ok (q, e)) : w.Leads path q := by
  unfold locate at h
  split at h
  · cases h
  · rename_i ha
    split at h
    · rename_i found hw
      cases h
      exact ⟨ha, hk.here ▸ reaches_of_walk hk he hw⟩
    · cases h

/-- A path is looked up where it was, if a file stands where nothing was found. -/
theorem locate_keeps {v w : Volume} {goal : Goal} {path : Bytes} {q : Place} {e : Option Entry}
    (hk : v.Keeps w) (he : e = none → ∃ content mode, w.entry? q = some (.file content mode))
    (h : v.locate goal path = .ok (q, e)) : w.locate goal path = .ok (q, w.entry? q) := by
  unfold locate at h ⊢
  split at h
  · cases h
  · split at h
    · rename_i found hw
      cases h
      have hw' : w.walk goal (origin w.here path) (names path) = .ok (q, w.entry? q) := by
        rw [hk.here]
        exact chase_keeps hk he hw
      rw [hw']
    · cases h

theorem leads_of_locate {v : Volume} {path : Bytes} {q : Place} {e : Entry}
    (h : v.locate .target path = .ok (q, some e)) : v.Leads path q :=
  leads_of_locate_keeps (Extends.refl v).keeps (by simp) h

/-- A path that is looked up at no link leads to what is found there. -/
theorem locate_target {v : Volume} {goal : Goal} {path : Bytes} {q : Place} {e : Option Entry}
    (hne : ∀ target, e ≠ some (.link target)) (h : v.locate goal path = .ok (q, e)) :
    v.locate .target path = .ok (q, e) := by
  unfold locate at h ⊢
  split at h
  · cases h
  · split at h
    · rename_i found hw
      cases h
      have ht : v.walk .target (origin v.here path) (names path) = .ok (q, e) :=
        chase_target hne hw
      rw [ht]
    · cases h

theorem Leads.locate_eq {v : Volume} {path : Bytes} {q : Place} (h : v.Leads path q) :
    v.locate .target path = .ok (q, v.entry? q) := by
  obtain ⟨ha, n, hn, hr⟩ := h
  have hw : v.walk .target (origin v.here path) (names path) = .ok (q, v.entry? q) :=
    hr.chase_eq hn
  simp only [locate, ha, hw]

theorem Leads.keeps {v w : Volume} {path : Bytes} {q : Place} (h : v.Leads path q)
    (hk : v.Keeps w) : w.Leads path q := by
  obtain ⟨ha, n, hn, hr⟩ := h
  exact ⟨ha, n, hn, hk.here ▸ hr.keeps hk⟩

theorem Leads.unique {v : Volume} {path : Bytes} {q r : Place} (h : v.Leads path q)
    (k : v.Leads path r) : q = r := by
  obtain ⟨-, n, -, hq⟩ := h
  obtain ⟨-, l, -, hr⟩ := k
  exact hq.unique hr

/-- A file is read where its path leads, by a user who may read it. -/
theorem read_eq_ok_iff {v : Volume} {path content : Bytes} :
    v.read path = .ok content ↔ ∃ q mode, v.Leads path q ∧
      v.entry? q = some (.file content mode) ∧ v.allows mode .read = true := by
  constructor
  · intro h
    unfold read at h
    split at h
    · cases h
    · rename_i q found mode hl
      split at h
      · cases h
        exact ⟨q, mode, leads_of_locate hl, entry_of_locate hl, ‹_›⟩
      · cases h
    all_goals cases h
  · intro h
    rcases h with ⟨q, mode, hl, he, hr⟩
    simp [read, hl.locate_eq, he, hr]

theorem read_extends {v w : Volume} {path content : Bytes} (h : v.read path = .ok content)
    (hk : v.Extends w) : w.read path = .ok content := by
  obtain ⟨q, mode, hl, he, hr⟩ := read_eq_ok_iff.mp h
  exact read_eq_ok_iff.mpr ⟨q, mode, hl.keeps hk.keeps, hk.entry he,
    (allows_congr hk.superuser mode .read).trans hr⟩

end BlockPurge.Volume
