import BlockPurge.Proofs.Path.Segments
import BlockPurge.Proofs.Volume.Replacement
import BlockPurge.Proofs.Volume.Settled

/-!
# What is drawn for a temporary file

The names that may be drawn for a temporary file are of one length, and none of them is looked up in
another way than the rest. So the path of a temporary file fails for one cause whatever is drawn, or
leads into one folder. What is drawn then decides nothing about a replacement unless every name is
taken: with other letters it comes to the same, but for the path in the text of a fault.
-/
namespace BlockPurge

namespace Volume

/-! ## Names to choose from -/

theorem segments_join (folder : Bytes) : ∃ front, ∀ name, Path.slash ∉ name →
    Path.segments (Path.join folder name) = front ++ [name] := by
  unfold Path.join
  split
  · rename_i hends
    rcases List.eq_nil_or_concat' folder with rfl | ⟨front, last, rfl⟩
    · exact ⟨[], fun name hname => List.splitOn_eq_singleton hname⟩
    · obtain rfl : last = Path.slash := by simpa using hends
      refine ⟨Path.segments front, fun name hname => ?_⟩
      rw [List.append_assoc, List.singleton_append, Path.segments, List.splitOn_append_cons_self,
        List.splitOn_eq_singleton hname]
      rfl
  · refine ⟨Path.segments folder, fun name hname => ?_⟩
    rw [Path.segments, List.splitOn_append_cons_self, List.splitOn_eq_singleton hname]
    rfl

theorem getLast?_join (folder : Bytes) {name : Bytes} (hne : name ≠ []) :
    (Path.join folder name).getLast? = name.getLast? := by
  unfold Path.join
  split
  · rw [List.getLast?_append_of_ne_nil _ hne]
  · rw [List.getLast?_append_of_ne_nil _ (List.cons_ne_nil _ _), List.getLast?_cons_of_ne_nil hne]

/-- A folder has names in front of every name that is joined to it. -/
theorem names_join (folder : Bytes) : ∃ front, ∀ name, name ≠ [] → Path.slash ∉ name →
    names (Path.join folder name) = front ++ [name] := by
  obtain ⟨front, hsegments⟩ := segments_join folder
  refine ⟨front.filter fun s => !s.isEmpty, fun name hne hname => ?_⟩
  have hopen : ¬ (name.getLast? == some Path.slash) = true := by
    intro h
    exact hname (List.mem_of_getLast? (beq_iff_eq.mp h))
  simp only [names, getLast?_join folder hne, if_neg hopen, hsegments name hname,
    List.filter_append]
  simp [hne]

/-- Names that are told apart by none of what a walk looks at, and are no steps in place or up. -/
structure Siblings {ι : Type} (name : ι → Name) : Prop where
  whole : ∀ i, Path.slash ∉ name i
  long : ∀ i, 2 < (name i).length
  length : ∀ i j, (name i).length = (name j).length
  zero : ∀ i j, 0 ∈ name i ↔ 0 ∈ name j

theorem encode_letters (letters : Letters) :
    Text.encode (String.ofList letters.row) = letters.row.map fun c => c.toNat.toUInt8 := by
  have ascii : alphabet.all (fun c => String.utf8EncodeChar c == [c.toNat.toUInt8]) = true := by
    decide
  rw [Text.encode, String.toList_ofList, List.map_eq_flatMap]
  refine List.flatMap_congr fun c hc => ?_
  exact beq_iff_eq.mp (List.all_eq_true.mp ascii c (letters.drawn c hc))

theorem zero_notMem_letters (letters : Letters) :
    0 ∉ Text.encode (String.ofList letters.row) := by
  have filled : alphabet.all (fun c => c.toNat.toUInt8 != 0) = true := by decide
  rw [encode_letters]
  intro h
  obtain ⟨c, hc, hzero⟩ := List.mem_map.mp h
  exact bne_iff_ne.mp (List.all_eq_true.mp filled c (letters.drawn c hc)) hzero

theorem siblings_temporaryName (path : Bytes) : Siblings (temporaryName (Path.stem path)) where
  whole letters h := by
    have hmem := Text.ofNat_mem_of_mem_encode (by decide) h
    simp only [String.toList_append, String.toList_ofList, List.mem_append] at hmem
    rcases hmem with (((hmem | hmem) | hmem) | hmem) | hmem
    · exact absurd hmem (by decide)
    · exact Path.slash_notMem_stem path hmem
    · exact absurd hmem (by decide)
    · exact absurd (letters.drawn _ hmem) (by decide)
    · exact absurd hmem (by decide)
  long letters := by
    have hend : (Text.encode ".tmp").length = 4 := rfl
    rw [temporaryName, Text.encode_append, List.length_append, hend]
    omega
  length letters letters' := by
    simp [temporaryName, Text.encode_append, encode_letters, letters.length_row,
      letters'.length_row]
  zero letters letters' := by
    simp [temporaryName, Text.encode_append, zero_notMem_letters]

/-! ## Walks to one of them -/

section
variable {v : Volume} {ι : Type} {name : ι → Name}

theorem Siblings.plain (h : Siblings name) (i : ι) :
    name i ≠ slashName ∧ name i ≠ [Path.dot] ∧ name i ≠ [Path.dot, Path.dot] := by
  have hlong := h.long i
  refine ⟨?_, ?_, ?_⟩ <;>
  · intro heq
    simp [heq, slashName] at hlong

/-- Where walks stop that differ in the last name alone. -/
inductive StopsAlike (v : Volume) (name : ι → Name) (stop : ι → Stop) : Prop
  | landed (folder : Place) : (∀ i, stop i = .landed (folder ++ [name i])
      (v.entry? (folder ++ [name i]))) → StopsAlike v name stop
  | link (folder : Place) (target : Bytes) (rest : List Name) :
      (∀ i, stop i = .link folder target (rest ++ [name i])) → StopsAlike v name stop
  | failed (cause : Cause) : (∀ i, stop i = .failed cause) → StopsAlike v name stop

/-- A last name that is looked up. -/
theorem descend_last {p : Place} {last : Name} (h : v.LooksUp p last) :
    v.descend .entry p [last] = .landed (p ++ [last]) (v.entry? (p ++ [last])) := by
  rw [descend_lookUp h (by simp)]
  cases he : v.entry? (p ++ [last]) with
  | none => simp
  | some e => cases e <;> simp [descend, he]

/-- Names of one length, none of which is a step, are all looked up in a folder or fail alike. -/
theorem looksUp_or_failed
    (plain : ∀ i, name i ≠ slashName ∧ name i ≠ [Path.dot] ∧ name i ≠ [Path.dot, Path.dot])
    (length : ∀ i j, (name i).length = (name j).length) (p : Place) (rest : ι → List Name) :
    (∀ i, v.LooksUp p (name i)) ∨
      ∃ cause, ∀ i, v.descend .entry p (name i :: rest i) = .failed cause := by
  cases hp : v.entry? p with
  | none => exact .inr ⟨.notFound, fun i => by simp [Volume.descend, hp]⟩
  | some e =>
    cases e with
    | file => exact .inr ⟨.notADirectory, fun i => by simp [Volume.descend, hp]⟩
    | link => exact .inr ⟨.notADirectory, fun i => by simp [Volume.descend, hp]⟩
    | folder mode =>
      cases hs : v.allows mode .search with
      | false =>
        exact .inr ⟨.permissionDenied, fun i => by simp [Volume.descend, hp, hs, (plain i).1]⟩
      | true =>
        cases hr : isRemoved p with
        | true => exact .inr ⟨.notFound, fun i => by simp [Volume.descend, hp, hs, hr, plain i]⟩
        | false =>
          by_cases short : ∀ i, (name i).length ≤ longestName
          · exact .inl fun i => ⟨⟨mode, hp, hs⟩, plain i, hr, short i⟩
          · obtain ⟨j, hj⟩ := not_forall.mp short
            refine .inr ⟨.nameTooLong, fun i => ?_⟩
            have hlong : longestName < (name i).length := length i j ▸ Nat.not_le.mp hj
            simp [Volume.descend, hp, hs, hr, plain i, hlong]

/-- A step in place or up leads on to the same place, or fails alike, whatever is behind it. -/
theorem descend_step {n : Name} (step : n = slashName ∨ n = [Path.dot] ∨ n = [Path.dot, Path.dot])
    (p : Place) :
    (∃ q, ∀ rest, v.descend .entry p (n :: rest) = v.descend .entry q rest) ∨
      ∃ cause, ∀ rest, v.descend .entry p (n :: rest) = .failed cause := by
  cases hp : v.entry? p with
  | none => exact .inr ⟨.notFound, fun rest => by simp [Volume.descend, hp]⟩
  | some e =>
    cases e with
    | file => exact .inr ⟨.notADirectory, fun rest => by simp [Volume.descend, hp]⟩
    | link => exact .inr ⟨.notADirectory, fun rest => by simp [Volume.descend, hp]⟩
    | folder mode =>
      rcases step with rfl | step
      · exact .inl ⟨p, fun rest => descend_slash _ rest hp⟩
      cases hs : v.allows mode .search with
      | false =>
        refine .inr ⟨.permissionDenied, fun rest => ?_⟩
        rcases step with rfl | rfl <;> simp [Volume.descend, hp, hs, slashName]
      | true =>
        rcases step with rfl | rfl
        · exact .inl ⟨p, fun rest => descend_dot _ rest hp hs⟩
        · exact .inl ⟨p.dropLast, fun rest => descend_up _ rest hp hs⟩

/-- Until its last name, no walk knows which of the siblings it is for. -/
theorem Siblings.descend (h : Siblings name) [Nonempty ι] (front : List Name) (p : Place) :
    StopsAlike v name fun i => v.descend .entry p (front ++ [name i]) := by
  induction front generalizing p with
  | nil =>
    rcases looksUp_or_failed h.plain h.length p fun _ => [] with hl | ⟨cause, hf⟩
    · exact .landed p fun i => descend_last (hl i)
    · exact .failed cause hf
  | cons n more ih =>
    simp only [List.cons_append]
    by_cases step : n = slashName ∨ n = [Path.dot] ∨ n = [Path.dot, Path.dot]
    · rcases descend_step (v := v) step p with ⟨q, hq⟩ | ⟨cause, hf⟩
      · simp only [hq]
        exact ih q
      · exact .failed cause fun i => hf _
    · have plain : n ≠ slashName ∧ n ≠ [Path.dot] ∧ n ≠ [Path.dot, Path.dot] := by
        simpa only [not_or] using step
      rcases looksUp_or_failed (v := v) (fun _ : ι => plain) (fun _ _ => rfl) p
        (fun i => more ++ [name i]) with hl | ⟨cause, hf⟩
      · have hl : v.LooksUp p n := hl (Classical.arbitrary ι)
        have hgoal : ∀ rest, ¬ (Goal.entry = .file ∧ rest = [slashName]) := by simp
        simp only [descend_lookUp hl (hgoal _)]
        cases he : v.entry? (p ++ [n]) with
        | none => exact .failed .notFound (by simp)
        | some e =>
          cases e with
          | folder => exact ih (p ++ [n])
          | file => exact ih (p ++ [n])
          | link target => exact .link p target more (by simp)
      · exact .failed cause hf

theorem Siblings.chase (h : Siblings name) [Nonempty ι] (b : Nat) (p : Place)
    (front : List Name) :
    (∃ folder, ∀ i, Volume.chase (v.descend .entry) b p (front ++ [name i]) =
      .ok (folder ++ [name i], v.entry? (folder ++ [name i]))) ∨
    ∃ cause, ∀ i, Volume.chase (v.descend .entry) b p (front ++ [name i]) = .error cause := by
  induction b generalizing p front with
  | zero =>
    cases h.descend (v := v) front p with
    | landed folder hl => exact .inl ⟨folder, fun i => chase_landed (hl i)⟩
    | link folder target rest hl =>
      refine .inr ⟨.linkLoop, fun i => ?_⟩
      unfold Volume.chase
      simp only [hl i]
    | failed cause hf => exact .inr ⟨cause, fun i => chase_failed (hf i)⟩
  | succ b ih =>
    cases h.descend (v := v) front p with
    | landed folder hl => exact .inl ⟨folder, fun i => chase_landed (hl i)⟩
    | link folder target rest hl =>
      have hnext : ∀ i, Volume.chase (v.descend .entry) (b + 1) p (front ++ [name i]) =
          Volume.chase (v.descend .entry) b (origin folder target)
            (names target ++ rest ++ [name i]) := by
        intro i
        rw [chase_link (hl i), List.append_assoc]
      simp only [hnext]
      exact ih (origin folder target) (names target ++ rest)
    | failed cause hf => exact .inr ⟨cause, fun i => chase_failed (hf i)⟩

theorem Siblings.acceptable (h : Siblings name) (folder : Bytes) (i j : ι) :
    Volume.acceptable (Path.join folder (name i)) =
      Volume.acceptable (Path.join folder (name j)) := by
  have hzero : (Path.join folder (name i)).contains 0 =
      (Path.join folder (name j)).contains 0 := by
    have hslash : (0 : UInt8) ≠ Path.slash := by decide
    unfold Path.join
    split <;> simp [hslash, h.zero i j]
  have hlength : (Path.join folder (name i)).length = (Path.join folder (name j)).length := by
    unfold Path.join
    split <;> simp [h.length i j]
  have hempty : (Path.join folder (name i)).isEmpty = (Path.join folder (name j)).isEmpty := by
    rw [Bool.eq_iff_iff, List.isEmpty_iff_length_eq_zero, List.isEmpty_iff_length_eq_zero, hlength]
  simp only [Volume.acceptable, hzero, hlength, hempty]

theorem isAbsolute_join {folder name : Bytes} (hne : name ≠ []) (whole : Path.slash ∉ name) :
    Path.isAbsolute (Path.join folder name) = Path.isAbsolute folder := by
  cases folder with
  | nil =>
    obtain ⟨b, rest, rfl⟩ := List.exists_cons_of_ne_nil hne
    have hb : b ≠ Path.slash := fun heq => whole (by simp [heq])
    simp [Path.join, Path.isAbsolute, hb]
  | cons b rest =>
    unfold Path.join
    split <;> rfl

/-- The paths of siblings in a folder lead into one folder, or fail alike. -/
theorem Siblings.locate (h : Siblings name) [Nonempty ι] (folder : Bytes) :
    (∃ parent, ∀ i, v.locate .entry (Path.join folder (name i)) =
      .ok (parent ++ [name i], v.entry? (parent ++ [name i]))) ∨
    ∃ fault, ∀ i, v.locate .entry (Path.join folder (name i)) = .error fault := by
  obtain ⟨front, hnames⟩ := names_join folder
  have hne : ∀ i, name i ≠ [] := fun i => (h.plain i).1
  have hwalk : ∀ i, v.walk .entry (origin v.here (Path.join folder (name i)))
      (names (Path.join folder (name i))) =
        Volume.chase (v.descend .entry) mostLinks (origin v.here folder) (front ++ [name i]) := by
    intro i
    simp only [walk, origin, hnames _ (hne i) (h.whole i), isAbsolute_join (hne i) (h.whole i)]
  have hacceptable := fun i => h.acceptable folder i (Classical.arbitrary ι)
  cases ha : Volume.acceptable (Path.join folder (name (Classical.arbitrary ι))) with
  | error fault =>
    exact .inr ⟨fault, fun i => by simp only [Volume.locate, hacceptable i, ha]⟩
  | ok accepted =>
    rcases h.chase (v := v) mostLinks (origin v.here folder) front with
        ⟨parent, hl⟩ | ⟨cause, hf⟩
    · exact .inl ⟨parent, fun i => by
        simp only [Volume.locate, hacceptable i, ha, hwalk i, hl i]⟩
    · exact .inr ⟨.system cause, fun i => by
        simp only [Volume.locate, hacceptable i, ha, hwalk i, hf i]⟩

end

/-! ## Temporary places -/

/-- All names that lead into one folder are granted there or refused there, unless they are taken.
-/
theorem temporaryFrom_cases {v : Volume} {folder : Bytes} {stem : String} {parent : Place}
    (leads : ∀ letters, v.locate .entry (Path.join folder (temporaryName stem letters)) =
      .ok (parent ++ [temporaryName stem letters],
        v.entry? (parent ++ [temporaryName stem letters]))) (draw : Draw) (attempts n : Nat) :
    v.temporaryFrom folder stem draw attempts n = .error (.located .crowded folder) ∨
    ∃ letters, v.temporaryFrom folder stem draw attempts n =
      if v.isWritableFolder parent then .ok (parent ++ [temporaryName stem letters])
      else .error (.located (.system .permissionDenied)
        (Path.join folder (temporaryName stem letters))) := by
  induction attempts generalizing n with
  | zero => exact .inl rfl
  | succ attempts ih =>
    have hl := leads (draw n)
    cases he : v.entry? (parent ++ [temporaryName stem (draw n)]) with
    | none =>
      refine .inr ⟨draw n, ?_⟩
      simp only [temporaryFrom, hl, he, List.dropLast_concat]
    | some e =>
      simp only [temporaryFrom, hl, he]
      exact ih (n + 1)

/-- Where every name that is tried is taken no place is found. -/
theorem temporaryFrom_taken {v : Volume} {folder : Bytes} {stem : String} {draw : Draw}
    (taken : ∀ n, ∃ place entry,
      v.locate .entry (Path.join folder (temporaryName stem (draw n))) = .ok (place, some entry))
    (attempts n : Nat) :
    v.temporaryFrom folder stem draw attempts n = .error (.located .crowded folder) := by
  induction attempts generalizing n with
  | zero => rfl
  | succ attempts ih =>
    obtain ⟨place, entry, hl⟩ := taken n
    simp only [temporaryFrom, hl]
    exact ih (n + 1)

/-- What is drawn decides which place is found, or which path a fault tells, and nothing else,
unless every name is taken. -/
theorem temporaryFor_cases (v : Volume) (path : Bytes) :
    (∃ fault, ∀ draw, v.temporaryFor draw path = .error fault) ∨
    ∃ folder, (∀ draw, v.temporaryFor draw path = .error (.located .crowded folder) ∨
        ∃ place, v.temporaryFor draw path = .ok place) ∨
      ∃ fault, ∀ draw, v.temporaryFor draw path = .error (.located .crowded folder) ∨
        ∃ letters, v.temporaryFor draw path = .error (.located fault
          (Path.join folder (temporaryName (Path.stem path) letters))) := by
  cases hf : v.absoluteFolderOf path with
  | error fault => exact .inl ⟨fault, fun draw => by simp only [temporaryFor, hf]⟩
  | ok folder =>
    right
    refine ⟨folder, ?_⟩
    simp only [temporaryFor, hf]
    have : Nonempty Letters := ⟨.ofNat 0⟩
    rcases (siblings_temporaryName path).locate (v := v) folder with
        ⟨parent, leads⟩ | ⟨fault, failed⟩
    · have outcome := fun draw => temporaryFrom_cases leads draw temporaryAttempts 0
      cases hw : v.isWritableFolder parent with
      | true =>
        simp only [hw, if_true] at outcome
        exact .inl fun draw => (outcome draw).imp_right fun ⟨letters, h⟩ => ⟨_, h⟩
      | false =>
        simp only [hw, Bool.false_eq_true, if_false] at outcome
        exact .inr ⟨_, outcome⟩
    · refine .inr ⟨fault, fun draw => .inr ⟨draw 0, ?_⟩⟩
      simp only [temporaryAttempts, temporaryFrom, failed]

end Volume

/-! ## Replacements -/

/-- A fault says that every name was taken. -/
inductive Fault.Crowded : Fault → Prop
  | intro (folder : Bytes) : Crowded (.located .crowded folder)

/-- One fault that tells the paths of two temporary files, whose names differ in what was drawn. -/
inductive Fault.Redrawn : Fault → Fault → Prop
  | intro (fault : Fault) (folder : Bytes) (stem : String) (letters letters' : Volume.Letters) :
      Redrawn (.located fault (Path.join folder (Volume.temporaryName stem letters)))
        (.located fault (Path.join folder (Volume.temporaryName stem letters')))

namespace Volume

/-- A replacement finds every name taken. -/
def Crowds (v : Volume) (draw : Draw) (path content : Bytes) : Prop :=
  ∃ fault, (v.replace draw path content).1 = .error fault ∧ fault.Crowded

/-- **What is drawn makes no difference to a replacement** but for the path in the text of a fault,
unless every name is taken. -/
theorem replace_redrawn (v : Volume) {draw draw' : Draw} (path content : Bytes)
    (free : ¬ v.Crowds draw path content) (free' : ¬ v.Crowds draw' path content) :
    (∃ w, v.replace draw path content = (.ok (), w) ∧ v.replace draw' path content = (.ok (), w)) ∨
    ∃ fault fault', (fault = fault' ∨ fault.Redrawn fault') ∧
      v.replace draw path content = (.error fault, v) ∧
      v.replace draw' path content = (.error fault', v) := by
  have crowded : ∀ {draw folder}, ¬ v.Crowds draw path content →
      v.temporaryFor draw (v.replacedPath path) ≠ .error (.located .crowded folder) := by
    intro draw folder free ht
    exact free ⟨_, by rw [replace_refused (.inl ht)], .intro folder⟩
  rcases temporaryFor_cases v (v.replacedPath path) with
      ⟨fault, failed⟩ | ⟨folder, granted | ⟨fault, refused⟩⟩
  · exact .inr ⟨fault, fault, .inl rfl, replace_refused (.inl (failed draw)) content,
      replace_refused (.inl (failed draw')) content⟩
  · obtain ⟨place, ht⟩ := (granted draw).resolve_left (crowded free)
    obtain ⟨place', ht'⟩ := (granted draw').resolve_left (crowded free')
    cases hr : v.renameTarget (v.replacedPath path) with
    | error fault =>
      exact .inr ⟨fault, fault, .inl rfl, replace_refused (.inr ⟨⟨place, ht⟩, hr⟩) content,
        replace_refused (.inr ⟨⟨place', ht'⟩, hr⟩) content⟩
    | ok target =>
      -- The rename takes the temporary file away, so the volume does not tell where it was.
      exact .inl ⟨_, replace_eq ht hr content, replace_eq ht' hr content⟩
  · obtain ⟨letters, ht⟩ := (refused draw).resolve_left (crowded free)
    obtain ⟨letters', ht'⟩ := (refused draw').resolve_left (crowded free')
    exact .inr ⟨_, _, .inr (.intro fault folder _ letters letters'),
      replace_refused (.inl ht) content, replace_refused (.inl ht') content⟩

end Volume

end BlockPurge
