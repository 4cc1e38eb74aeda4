import BlockPurge.Proofs.Volume.Reach

/-!
# What a walk looks at

`Visits` derives the places that a walk looks at, links followed where they are met. The walk
depends on what stands there and on nothing else: in two volumes that agree on these places, up to
what files hold, it goes the same way and ends at the same place. A walk that gets somewhere has
looked at folders and links alone before it.
-/
namespace BlockPurge.Volume

/-- A walk over names from a place looks at another place. -/
inductive Visits (v : Volume) : Place → List Name → Place → Prop
  | here (p : Place) (ns : List Name) : Visits v p ns p
  | look {p : Place} {name : Name} (rest : List Name) : v.LooksUp p name →
      Visits v p (name :: rest) (p ++ [name])
  | move {p r q : Place} {name : Name} {rest : List Name} :
      v.Moves p name r → Visits v r rest q → Visits v p (name :: rest) q
  | follow {p q : Place} {name : Name} {target : Bytes} {rest : List Name} :
      v.LooksUp p name → v.entry? (p ++ [name]) = some (.link target) →
      Visits v (origin p target) (names target ++ rest) q → Visits v p (name :: rest) q

/-- The walk of a path looks at a place. -/
def Passes (v : Volume) (path : Bytes) (q : Place) : Prop :=
  v.Visits (origin v.here path) (names path) q

/-- Two volumes look the same to a walk that comes by a place: they have the same there, or files
that may differ. -/
inductive Alike (v w : Volume) (q : Place) : Prop
  | same : w.entry? q = v.entry? q → Alike v w q
  | files {content content' : Bytes} {mode mode' : Mode} :
      v.entry? q = some (.file content mode) → w.entry? q = some (.file content' mode') →
      Alike v w q

section
variable {v w : Volume} {q : Place}

theorem Alike.none (h : v.Alike w q) (he : v.entry? q = none) : w.entry? q = none := by
  cases h with
  | same hs => exact hs.trans he
  | files hv => simp [he] at hv

theorem Alike.folder (h : v.Alike w q) {mode : Mode} (he : v.entry? q = some (.folder mode)) :
    w.entry? q = some (.folder mode) := by
  cases h with
  | same hs => exact hs.trans he
  | files hv => simp [he] at hv

theorem Alike.link (h : v.Alike w q) {target : Bytes} (he : v.entry? q = some (.link target)) :
    w.entry? q = some (.link target) := by
  cases h with
  | same hs => exact hs.trans he
  | files hv => simp [he] at hv

theorem Alike.file (h : v.Alike w q) {content : Bytes} {mode : Mode}
    (he : v.entry? q = some (.file content mode)) :
    ∃ content' mode', w.entry? q = some (.file content' mode') := by
  cases h with
  | same hs => exact ⟨content, mode, hs.trans he⟩
  | files _ hw => exact ⟨_, _, hw⟩

end

/-! ## Walks in volumes that look the same -/

/-- Where a walk stops, with what another volume has there. -/
def Stop.on (w : Volume) : Stop → Stop
  | .landed q _ => .landed q (w.entry? q)
  | stop => stop

theorem descend_alike {v w : Volume} (hs : w.superuser = v.superuser) {goal : Goal} {p : Place}
    {ns : List Name} (h : ∀ q, v.Visits p ns q → v.Alike w q) :
    w.descend goal p ns = (v.descend goal p ns).on w := by
  induction ns generalizing p with
  | nil => rfl
  | cons name rest ih =>
    have goesOn : ∀ {r}, v.Moves p name r →
        w.descend goal r rest = (v.descend goal r rest).on w :=
      fun hm => ih fun q hq => h q (.move hm hq)
    have hp := h p (.here p _)
    cases he : v.entry? p with
    | none =>
      rw [descend, descend, hp.none he, he]
      rfl
    | some e =>
      cases e with
      | link target =>
        rw [descend, descend, hp.link he, he]
        rfl
      | file content mode =>
        obtain ⟨content', mode', hw⟩ := hp.file he
        rw [descend, descend, hw, he]
        rfl
      | folder mode =>
        rw [descend, descend, hp.folder he, he]
        simp only [allows_congr hs mode .search]
        by_cases h₁ : name = slashName
        · subst h₁
          simpa using goesOn (.slash he)
        by_cases h₂ : v.allows mode .search = true
        case neg => simp [h₁, h₂, Stop.on]
        by_cases h₃ : name = [Path.dot]
        · subst h₃
          simpa [h₁, h₂] using goesOn (.dot he h₂)
        by_cases h₄ : name = [Path.dot, Path.dot]
        · subst h₄
          simpa [h₁, h₂] using goesOn (.up he h₂)
        by_cases hg : goal = .file ∧ rest = [slashName]
        · simp [h₁, h₂, h₃, h₄, hg, Stop.on]
        by_cases h₅ : isRemoved p = true
        · simp [h₁, h₂, h₃, h₄, hg, h₅, Stop.on]
        by_cases h₆ : longestName < name.length
        · simp [h₁, h₂, h₃, h₄, hg, h₅, h₆, Stop.on]
        have hl : v.LooksUp p name :=
          ⟨⟨mode, he, h₂⟩, ⟨h₁, h₃, h₄⟩, by simpa using h₅, Nat.not_lt.mp h₆⟩
        have hlook := h _ (.look rest hl)
        simp only [h₁, h₂, h₃, h₄, hg, h₅, h₆, if_false, Bool.not_true]
        cases hn : v.entry? (p ++ [name]) with
        | none =>
          rw [hlook.none hn]
          by_cases hr : rest.isEmpty = true <;> simp [hr, Stop.on, hlook.none hn]
        | some f =>
          cases f with
          | link target =>
            rw [hlook.link hn]
            by_cases hend : rest.isEmpty ∧ goal = .entry
            · simp [hend, Stop.on, hlook.link hn]
            · simp only [hend, if_false]
              rfl
          | folder mode =>
            rw [hlook.folder hn]
            exact goesOn (.enter hl hn (by simp))
          | file content mode =>
            obtain ⟨content', mode', hw⟩ := hlook.file hn
            rw [hw]
            exact goesOn (.enter hl hn (by simp))

/-- Behind a link a walk still looks at the places that the whole of it looks at. -/
theorem visits_of_descend {v : Volume} {goal : Goal} {p f q : Place} {ns rest : List Name}
    {target : Bytes} (h : v.descend goal p ns = .link f target rest)
    (hq : v.Visits (origin f target) (names target ++ rest) q) : v.Visits p ns q := by
  induction ns generalizing p with
  | nil => simp [descend] at h
  | cons name more ih =>
    have goesOn : ∀ cause, v.descend goal p (name :: more) ≠ .failed cause := by simp [h]
    obtain ⟨mode, hp, rfl | ⟨hs, rfl | rfl | ⟨hl, hg⟩⟩⟩ := cases_of_descend goesOn
    · rw [descend_slash goal more hp] at h
      exact .move (.slash hp) (ih h)
    · rw [descend_dot goal more hp hs] at h
      exact .move (.dot hp hs) (ih h)
    · rw [descend_up goal more hp hs] at h
      exact .move (.up hp hs) (ih h)
    · rw [descend_lookUp hl hg] at h
      split at h
      · split at h <;> cases h
      · rename_i hn
        split at h <;> cases h
        exact .follow hl hn hq
      · rename_i hne hn
        exact .move (.enter hl hn fun target he => hne target he) (ih h)

theorem visits_of_landed {v : Volume} {p q : Place} {ns : List Name} {e : Option Entry}
    (h : v.descend .target p ns = .landed q e) : v.Visits p ns q := by
  induction ns generalizing p with
  | nil =>
    obtain ⟨rfl, -⟩ := Stop.landed.inj h
    exact .here p []
  | cons name more ih =>
    have goesOn : ∀ cause, v.descend .target p (name :: more) ≠ .failed cause := by simp [h]
    rcases moves_of_descend goesOn with ⟨r, hm⟩ | ⟨hl, ⟨next, hn, hd⟩ | ⟨-, hd⟩⟩
    · rw [hm.descend_eq] at h
      exact .move hm (ih h)
    · simp [hd] at h
    · obtain ⟨rfl, -⟩ := Stop.landed.inj (hd.symm.trans h)
      exact .look more hl

/-- A walk looks at the place where it ends. -/
theorem visits_of_chase {v : Volume} {b : Nat} {p q : Place} {ns : List Name} {e : Option Entry}
    (h : chase (v.descend .target) b p ns = .ok (q, e)) : v.Visits p ns q := by
  refine chase_induct h ?_ ?_
  · intro b p ns hl
    exact visits_of_landed hl
  · intro b p ns f target rest hd ih
    exact visits_of_descend hd ih

/-- What a volume has where a walk in another one ends. -/
def found (w : Volume) (end? : Place × Option Entry) : Place × Option Entry :=
  (end?.1, w.entry? end?.1)

theorem chase_alike {v w : Volume} (hs : w.superuser = v.superuser) {goal : Goal} {b : Nat}
    {p : Place} {ns : List Name} (h : ∀ q, v.Visits p ns q → v.Alike w q) :
    chase (w.descend goal) b p ns = (chase (v.descend goal) b p ns).map w.found := by
  have hd : w.descend goal p ns = (v.descend goal p ns).on w := descend_alike hs h
  induction b generalizing p ns with
  | zero =>
    unfold chase
    rw [hd]
    cases v.descend goal p ns <;> rfl
  | succ b ih =>
    unfold chase
    rw [hd]
    cases hv : v.descend goal p ns with
    | landed q e => rfl
    | failed cause => rfl
    | link f target rest =>
      have hrest : ∀ q, v.Visits (origin f target) (names target ++ rest) q → v.Alike w q :=
        fun q hq => h q (visits_of_descend hv hq)
      exact ih hrest (descend_alike hs hrest)

theorem walk_alike {v w : Volume} (hs : w.superuser = v.superuser) {goal : Goal} {p : Place}
    {ns : List Name} (h : ∀ q, v.Visits p ns q → v.Alike w q) :
    w.walk goal p ns = (v.walk goal p ns).map w.found :=
  chase_alike hs h

/-- A path leads to the same place in two volumes that look the same to its walk. -/
theorem locate_alike {v w : Volume} (hh : w.here = v.here) (hs : w.superuser = v.superuser)
    {goal : Goal} {path : Bytes} (h : ∀ q, v.Passes path q → v.Alike w q) :
    w.locate goal path = (v.locate goal path).map w.found := by
  unfold locate
  cases acceptable path with
  | error fault => rfl
  | ok done =>
    simp only [hh, walk_alike hs h]
    cases v.walk goal (origin v.here path) (names path) <;> rfl

theorem Leads.alike {v w : Volume} {path : Bytes} {q : Place} {e : Entry} (h : v.Leads path q)
    (hh : w.here = v.here) (hs : w.superuser = v.superuser)
    (ha : ∀ r, v.Passes path r → v.Alike w r) (hq : w.entry? q = some e) : w.Leads path q := by
  refine leads_of_locate (e := e) ?_
  rw [locate_alike hh hs ha, h.locate_eq, ← hq]
  rfl

theorem passes_of_locate {v : Volume} {path : Bytes} {q : Place} {e : Option Entry}
    (h : v.locate .target path = .ok (q, e)) : v.Passes path q := by
  unfold locate at h
  split at h
  · cases h
  · split at h
    · rename_i hw
      cases h
      exact visits_of_chase hw
    · cases h

/-- A path reads the same in two volumes that have the same at every place its walk looks at. -/
theorem read_same {v w : Volume} (hh : w.here = v.here) (hs : w.superuser = v.superuser)
    {path : Bytes} (h : ∀ q, v.Passes path q → w.entry? q = v.entry? q) :
    w.read path = v.read path := by
  have hl : w.locate .target path = v.locate .target path := by
    rw [locate_alike hh hs fun q hq => .same (h q hq)]
    cases hv : v.locate .target path with
    | error fault => rfl
    | ok end? =>
      obtain ⟨q, e⟩ := end?
      simp only [Except.map, found, h q (passes_of_locate hv), entry_of_locate hv]
  unfold read
  simp only [hl, allows_congr hs]

/-! ## What a walk that gets somewhere has looked at -/

theorem Moves.place_eq {v : Volume} {p r : Place} {name : Name} (h : v.Moves p name r) :
    r = if name = slashName ∨ name = [Path.dot] then p
      else if name = [Path.dot, Path.dot] then p.dropLast else p ++ [name] := by
  cases h with
  | slash => simp
  | dot => simp
  | up => simp [slashName]
  | enter hl => simp [hl.plain]

theorem Moves.unique {v : Volume} {p r r' : Place} {name : Name} (h : v.Moves p name r)
    (h' : v.Moves p name r') : r = r' :=
  h.place_eq.trans h'.place_eq.symm

theorem LooksUp.place_eq {v : Volume} {p r : Place} {name : Name} (h : v.LooksUp p name)
    (hm : v.Moves p name r) : r = p ++ [name] := by
  simpa [h.plain] using hm.place_eq

/-- No move is made where a link is looked up. -/
theorem Moves.not_link {v : Volume} {p r : Place} {name : Name} {target : Bytes}
    (h : v.Moves p name r) (hl : v.LooksUp p name)
    (hn : v.entry? (p ++ [name]) = some (.link target)) : False := by
  cases h with
  | slash => exact hl.plain.1 rfl
  | dot => exact hl.plain.2.1 rfl
  | up => exact hl.plain.2.2 rfl
  | enter _ he hne => exact hne target (Option.some.inj (he.symm.trans hn))

/-- On its way a walk that gets somewhere looks at folders, and at links that stand for a folder or
for its end. -/
theorem Reaches.visited {v : Volume} {p q r : Place} {ns : List Name} {n : Nat}
    (h : v.Reaches p ns n q) (hv : v.Visits p ns r) :
    r = q ∨ (∃ mode, v.entry? r = some (.folder mode)) ∨
      ∃ f name target t k, r = f ++ [name] ∧ v.entry? r = some (.link target) ∧
        v.Reaches (origin f target) (names target) k t ∧
        (t = q ∨ ∃ mode, v.entry? t = some (.folder mode)) := by
  induction hv generalizing n with
  | here p ns => exact h.start.imp And.right .inl
  | @look p name rest hl =>
    cases h with
    | move hm hr =>
      rw [hl.place_eq hm] at hr
      exact hr.start.imp And.right .inl
    | @follow _ _ _ target _ _ hl hn hr =>
      obtain ⟨t, k, l, h₁, h₂, -⟩ := hr.split
      exact .inr (.inr ⟨p, name, target, t, k, rfl, hn, h₁, h₂.start.imp_left And.right⟩)
  | move hm _ ih =>
    cases h with
    | move hm' hr => exact ih (hm.unique hm' ▸ hr)
    | follow hl hn => exact (hm.not_link hl hn).elim
  | follow hl hn _ ih =>
    cases h with
    | move hm _ => exact (hm.not_link hl hn).elim
    | follow _ hn' hr =>
      obtain rfl := Entry.link.inj (Option.some.inj (hn.symm.trans hn'))
      exact ih hr

/-- The walk of a path to an entry does not come by a place where nothing stands. -/
theorem Leads.not_passes {v : Volume} {path : Bytes} {q r : Place} {e : Entry}
    (h : v.Leads path q) (hq : v.entry? q = some e) (hr : v.entry? r = none) :
    ¬ v.Passes path r := by
  intro hp
  obtain ⟨-, n, -, hw⟩ := h
  rcases hw.visited hp with rfl | ⟨mode, hf⟩ | ⟨f, name, target, t, k, -, hn, -⟩
  · simp [hq] at hr
  · simp [hf] at hr
  · simp [hn] at hr

end BlockPurge.Volume
