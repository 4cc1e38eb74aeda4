import BlockPurge.Proofs.Volume.Rooted
import BlockPurge.Volume.Canonical

/-!
# Canonical forms name the place that a path leads to

The search for a canonical form looks every name up by an absolute path of its own, so it asks for
other rights than a walk and knows no longest path. It stays at rooted places, and where it ends the
walk over the same names ends too, unless that is refused a right or the path is too long. The
canonical form of a path that leads to an entry is then the absolute path of that very place.
-/
namespace BlockPurge.Volume

theorem notMem_of_mem_names {path : Bytes} {name : Name} (h : name ∈ names path) :
    Path.slash ∉ name := by
  have hs : ∀ s ∈ (Path.segments path).filter (fun s => !s.isEmpty), Path.slash ∉ s :=
    fun s hm => Path.notMem_of_mem_splitOn (List.mem_filter.mp hm).1
  simp only [names] at h
  split at h
  · rcases List.mem_append.mp h with h | h
    · exact hs name h
    · simp [List.mem_singleton.mp h, slashName]
  · exact hs name h

/-- An absolute path that something is found at looks its last name up in a folder. -/
theorem lookUp_of_locate {v : Volume} {p q : Place} {name : Name} {goal : Goal} {e : Option Entry}
    (hr : v.Rooted p) (bare : ∀ target, v.entry? p ≠ some (.link target)) (hn : Proper name)
    (h : v.locate goal (pathOf (p ++ [name])) = .ok (q, e)) : v.LooksUp p name := by
  have proper : ∀ n ∈ p ++ [name], Proper n := by
    intro n hm
    rcases List.mem_append.mp hm with hm | hm
    · exact hr.proper n hm
    · exact List.mem_singleton.mp hm ▸ hn
  unfold locate at h
  split at h
  · cases h
  split at h
  case h_2 => cases h
  rename_i found hw
  rw [origin, isAbsolute_pathOf, if_pos rfl, names_pathOf proper] at hw
  have goesOn := advance_of_chase hw
  have hd : (∃ cause, v.descend goal [] (p ++ [name]) = .failed cause) ∨
      v.descend goal [] (p ++ [name]) = v.descend goal p [name] :=
    descend_append (a := []) (b := p) (fun q hq hne => hr.folder hq hne) bare hr.proper [name]
  rcases hd with ⟨cause, hd⟩ | hd
  · exact absurd hd (goesOn cause)
  rw [hd] at goesOn
  obtain ⟨mode, -, rfl | ⟨-, rfl | rfl | ⟨hl, -⟩⟩⟩ := cases_of_descend goesOn
  · exact absurd rfl hn.filled
  · exact absurd rfl hn.noDot
  · exact absurd rfl hn.noUp
  · exact hl

/-- Where the search for a canonical form has come to: a rooted place with a folder, or with a file
that was found by its own absolute path and behind which no folder is asked for. -/
structure Settled (v : Volume) (p : Place) (ns : List Name) : Prop where
  rooted : v.Rooted p
  found : (∃ mode, v.entry? p = some (.folder mode)) ∨
    asksFolder ns = false ∧ ∃ content mode,
      v.locate .entry (pathOf p) = .ok (p, some (.file content mode))

/-- What the search for a canonical form knows where it stops. -/
def Stop.Settled (v : Volume) : Stop → Prop
  | .landed q e => v.Settled q [] ∧ v.entry? q = e
  | .link f _ rest =>
    v.Rooted f ∧ (∃ mode, v.entry? f = some (.folder mode)) ∧ ∀ name ∈ rest, Path.slash ∉ name
  | .failed _ => True

section
variable {v : Volume} {p : Place} {name : Name} {ns rest : List Name}

theorem Settled.bare (h : v.Settled p ns) : ∀ target, v.entry? p ≠ some (.link target) := by
  rcases h.found with ⟨mode, hp⟩ | ⟨-, content, mode, hl⟩
  · simp [hp]
  · simp [entry_of_locate hl]

/-- A slash or a step up is met in a folder alone. -/
theorem Settled.folder (h : v.Settled p (name :: rest))
    (hn : name = slashName ∨ name = [Path.dot, Path.dot]) :
    ∃ mode, v.entry? p = some (.folder mode) := by
  rcases h.found with hp | ⟨ha, -⟩
  · exact hp
  · rcases hn with rfl | rfl <;> simp [asksFolder, slashName] at ha

theorem Settled.up (h : v.Settled p ([Path.dot, Path.dot] :: rest)) :
    v.Settled p.dropLast rest where
  rooted := h.rooted.dropLast
  found := by
    obtain ⟨mode, hp⟩ := h.folder (.inr rfl)
    by_cases heq : p.dropLast = p
    · exact .inl ⟨mode, by rw [heq, hp]⟩
    · exact .inl (h.rooted.folder (List.dropLast_prefix p) heq)

/-- What the search for a canonical form does with a name that it looks up, and a walk with it. -/
theorem Settled.lookUp (h : v.Settled p (name :: rest)) (hn : Proper name)
    (hf : ∀ cause, v.settle p (name :: rest) ≠ .failed cause) :
    v.LooksUp p name ∧
      ((∃ target, v.settle p (name :: rest) = .link p target rest ∧
          v.descend .target p (name :: rest) = .link p target rest) ∨
        v.Settled (p ++ [name]) rest ∧ v.settle p (name :: rest) = v.settle (p ++ [name]) rest ∧
          v.descend .target p (name :: rest) = v.descend .target (p ++ [name]) rest) := by
  have hs : ¬(name = slashName ∨ name = [Path.dot]) := not_or.mpr ⟨hn.filled, hn.noDot⟩
  rw [settle, if_neg hs, if_neg hn.noUp] at hf ⊢
  cases hloc : v.locate .entry (pathOf (p ++ [name])) with
  | error fault => cases fault <;> simp [hloc] at hf
  | ok found =>
    obtain ⟨q, e⟩ := found
    have hl := lookUp_of_locate h.rooted h.bare hn hloc
    obtain ⟨mode, hp, -⟩ := hl.folder
    have hr := h.rooted.concat hp hn
    obtain rfl := place_of_locate_pathOf hr (.inl rfl) hloc
    have he := entry_of_locate hloc
    refine ⟨hl, ?_⟩
    rw [descend_lookUp hl (by simp), he]
    cases e with
    | none => simp [hloc] at hf
    | some e =>
      cases e with
      | link target => exact .inl ⟨target, by simp⟩
      | folder mode => exact .inr ⟨⟨hr, .inl ⟨mode, he⟩⟩, by simp [isFolder], rfl⟩
      | file content mode =>
        by_cases ha : asksFolder rest = true
        · simp [hloc, ha, isFolder] at hf
        · exact .inr ⟨⟨hr, .inr ⟨by simpa using ha, content, mode, hloc⟩⟩, by simp [ha], rfl⟩

/-- The search goes on at a dot wherever it has come to. -/
theorem Settled.dot (h : v.Settled p ([Path.dot] :: rest)) :
    v.Settled p rest ∧ (rest = [] → ∃ mode, v.entry? p = some (.folder mode)) := by
  rcases h.found with hp | ⟨ha, found⟩
  · exact ⟨⟨h.rooted, .inl hp⟩, fun _ => hp⟩
  · simp only [asksFolder, if_true, Bool.or_eq_false_iff] at ha
    exact ⟨⟨h.rooted, .inr ⟨ha.2, found⟩⟩, fun hr => by simp [hr] at ha⟩

/-- A walk that needs the right to search a folder goes on there, or is denied it. -/
theorem descend_or_denied {mode : Mode} {r : Place} {stop : Stop}
    (hp : v.entry? p = some (.folder mode)) (hn : name ≠ slashName)
    (step : v.allows mode .search = true →
      v.descend .target p (name :: rest) = v.descend .target r rest)
    (hd : v.descend .target r rest = stop ∨ v.descend .target r rest = .failed .permissionDenied) :
    v.descend .target p (name :: rest) = stop ∨
      v.descend .target p (name :: rest) = .failed .permissionDenied := by
  cases hs : v.allows mode .search with
  | true => rwa [step hs]
  | false =>
    right
    rw [descend, hp]
    simp [hs, hn]

/-- No walk goes on from a file. -/
theorem descend_file {content : Bytes} {mode : Mode} (hp : v.entry? p = some (.file content mode))
    (hne : ns ≠ []) : v.descend .target p ns = .failed .notADirectory := by
  obtain ⟨next, rest, rfl⟩ := List.exists_cons_of_ne_nil hne
  rw [descend, hp]

/-- Where the search for a canonical form stops, the walk over the same names does, unless it comes
to a folder that may not be searched. -/
theorem Settled.settle (h : v.Settled p ns) (hns : ∀ name ∈ ns, Path.slash ∉ name)
    (hf : ∀ cause, v.settle p ns ≠ .failed cause) :
    (v.settle p ns).Settled v ∧ (v.descend .target p ns = v.settle p ns ∨
      v.descend .target p ns = .failed .permissionDenied) := by
  induction ns generalizing p with
  | nil => exact ⟨⟨h, rfl⟩, .inl rfl⟩
  | cons name rest ih =>
    have hrest : ∀ n ∈ rest, Path.slash ∉ n := fun n hm => hns n (List.mem_cons_of_mem _ hm)
    by_cases h₁ : name = slashName
    · obtain ⟨mode, hp⟩ := h.folder (.inl h₁)
      have he : v.settle p (name :: rest) = v.settle p rest := by simp [Volume.settle, h₁]
      rw [he] at hf ⊢
      rw [h₁, descend_slash .target rest hp]
      exact ih ⟨h.rooted, .inl ⟨mode, hp⟩⟩ hrest hf
    by_cases h₂ : name = [Path.dot]
    · have he : v.settle p (name :: rest) = v.settle p rest := by simp [Volume.settle, h₂]
      rw [he] at hf ⊢
      obtain ⟨hnext, hlast⟩ := (h₂ ▸ h).dot
      obtain ⟨hstop, hd⟩ := ih hnext hrest hf
      refine ⟨hstop, ?_⟩
      rcases h.found with ⟨mode, hp⟩ | ⟨-, content, mode, hl⟩
      · exact descend_or_denied hp h₁ (fun hs => h₂ ▸ descend_dot .target rest hp hs) hd
      · -- Behind a file the next name would have to be looked up in it, and no walk does that.
        have hp := entry_of_locate hl
        have hne : rest ≠ [] := by
          intro hr
          obtain ⟨mode, hfolder⟩ := hlast hr
          simp [hp] at hfolder
        rcases hd with hd | hd
        · exact absurd (hd.symm.trans (descend_file hp hne)) (hf _)
        · cases hd.symm.trans (descend_file hp hne)
    by_cases h₃ : name = [Path.dot, Path.dot]
    · obtain ⟨mode, hp⟩ := h.folder (.inr h₃)
      have he : v.settle p (name :: rest) = v.settle p.dropLast rest := by
        simp [Volume.settle, h₃, slashName]
      rw [he] at hf ⊢
      obtain ⟨hstop, hd⟩ := ih (h₃ ▸ h).up hrest hf
      exact ⟨hstop, descend_or_denied hp h₁ (fun hs => h₃ ▸ descend_up .target rest hp hs) hd⟩
    have hn : Proper name := ⟨h₁, hns name List.mem_cons_self, h₂, h₃⟩
    obtain ⟨hl, ⟨target, hs, hd⟩ | ⟨hnext, hs, hd⟩⟩ := h.lookUp hn hf
    · obtain ⟨mode, hp, -⟩ := hl.folder
      rw [hs, hd]
      exact ⟨⟨h.rooted, ⟨mode, hp⟩, hrest⟩, .inl rfl⟩
    · rw [hs] at hf ⊢
      rw [hd]
      exact ih hnext hrest hf

theorem chase_failed {advance : Place → List Name → Stop} {b : Nat} {cause : Cause}
    (h : advance p ns = .failed cause) : chase advance b p ns = .error cause := by
  unfold chase
  simp [h]

/-- Where the search for a canonical form ends, the walk over the same names does, unless it comes
to a folder that may not be searched. -/
theorem Settled.chase {b : Nat} {q : Place} {e : Option Entry} (h : v.Settled p ns)
    (hns : ∀ name ∈ ns, Path.slash ∉ name) (hc : chase v.settle b p ns = .ok (q, e)) :
    v.Settled q [] ∧ v.entry? q = e ∧
      (chase (v.descend .target) b p ns = .ok (q, e) ∨
        chase (v.descend .target) b p ns = .error .permissionDenied) := by
  revert h hns
  refine chase_induct hc ?_ ?_
  · intro b p ns hl h hns
    obtain ⟨hstop, hd⟩ := h.settle hns (by simp [hl])
    rw [hl] at hstop hd
    exact ⟨hstop.1, hstop.2, hd.imp chase_landed chase_failed⟩
  · intro b p ns f target rest hl ih h hns
    obtain ⟨hstop, hd⟩ := h.settle hns (by simp [hl])
    rw [hl] at hstop hd
    obtain ⟨hr, hp, hrest⟩ := hstop
    have hnext : v.Settled (origin f target) (names target ++ rest) := by
      unfold origin
      split
      · exact ⟨rooted_root v, .inl ⟨_, entry?_root v⟩⟩
      · exact ⟨hr, .inl hp⟩
    have hnames : ∀ name ∈ names target ++ rest, Path.slash ∉ name := by
      intro name hm
      rcases List.mem_append.mp hm with hm | hm
      · exact notMem_of_mem_names hm
      · exact hrest name hm
    obtain ⟨hq, he, hw⟩ := ih hnext hnames
    refine ⟨hq, he, ?_⟩
    rcases hd with hd | hd
    · rwa [chase_link hd]
    · exact .inr (chase_failed hd)

end

theorem names_ne_nil {path : Bytes} (hr : Path.isAbsolute path = false) (hne : path ≠ []) :
    names path ≠ [] := by
  obtain ⟨b, rest, rfl⟩ := List.exists_cons_of_ne_nil hne
  have hb : b ≠ Path.slash := by simpa [Path.isAbsolute] using hr
  obtain ⟨s, more, hs⟩ : ∃ s more, Path.segments (b :: rest) = (b :: s) :: more := by
    obtain ⟨head, more, hs⟩ :=
      List.exists_cons_of_ne_nil (List.splitOn_ne_nil Path.slash rest)
    exact ⟨head, more, by simp [Path.segments, List.splitOn_cons_eq_if_modifyHead, hb, hs]⟩
  unfold names
  simp only [hs]
  split <;> simp

/-- A relative path leads nowhere from a current folder that is none. -/
theorem Leads.standing {v : Volume} {path : Bytes} {q : Place} (h : v.Leads path q)
    (sound : v.Sound) : Path.isAbsolute path = false → v.Standing := by
  intro hr hp
  obtain ⟨ha, n, -, hq⟩ := h
  rw [origin, hr, if_neg (by simp)] at hq
  have hne := names_ne_nil hr (acceptable_iff.mp ha).2.1
  exact ⟨sound hp, hq.start.resolve_left fun hn => hne hn.1⟩

/-- The canonical form of a path is the absolute path of a rooted place with an entry. The path
itself leads there, unless it is too long or comes to a folder that may not be searched. -/
theorem canonical_cases {v : Volume} {path form : Bytes}
    (standing : Path.isAbsolute path = false → v.Standing) (h : v.canonical path = .ok form) :
    ∃ q, form = pathOf q ∧ v.Settled q [] ∧
      (v.locate .target path = .ok (q, v.entry? q) ∨
        v.locate .target path = .error (.system .permissionDenied) ∨
        longestPath < path.length) := by
  unfold canonical at h
  split at h
  · cases h
  rename_i hzero
  split at h
  · cases h
  rename_i hempty
  split at h
  · cases h
  rename_i hremoved
  split at h
  case h_2 => cases h
  rename_i q e hc
  have hstart : v.Settled (origin v.here path) (names path) := by
    unfold origin
    split
    · exact ⟨rooted_root v, .inl ⟨_, entry?_root v⟩⟩
    · rename_i ha
      have ha : Path.isAbsolute path = false := by simpa using ha
      have hr : isRemoved v.here = false := by simpa [ha] using hremoved
      obtain ⟨hrooted, hfolder⟩ := standing ha hr
      exact ⟨hrooted, .inl hfolder⟩
  obtain ⟨hq, rfl, hw⟩ := hstart.chase (fun name hm => notMem_of_mem_names hm) hc
  refine ⟨q, (Except.ok.inj h).symm, hq, ?_⟩
  by_cases hlong : longestPath < path.length
  · exact .inr (.inr hlong)
  have ha : acceptable path = .ok () :=
    acceptable_iff.mpr ⟨by simpa using hzero, by simpa using hempty, Nat.le_of_not_lt hlong⟩
  rcases hw with hw | hw
  · have hw' : v.walk .target (origin v.here path) (names path) = .ok (q, v.entry? q) := hw
    exact .inl (by simp only [locate, ha, hw'])
  · have hw' : v.walk .target (origin v.here path) (names path) = .error .permissionDenied := hw
    exact .inr (.inl (by simp only [locate, ha, hw']))

end BlockPurge.Volume
