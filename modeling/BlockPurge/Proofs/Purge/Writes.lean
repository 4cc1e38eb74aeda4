import BlockPurge.Proofs.Purge.Trace
import BlockPurge.Proofs.Volume.ReadBack

/-!
# Writing the metadata back

A write of the metadata calls nothing. A reader of the file finds the old bytes until the last step
of the replacement, then the new ones if the write is granted, and still the old ones if it is
refused.
-/
namespace BlockPurge.Purge

open Volume

/-- What a write comes to at a path that held some bytes before it. -/
structure Writes (path old new : Bytes) (writing : List Deed) (verdict : Except Failure Unit)
    (stored : Volume) : Prop where
  moments : ∀ given, ∃ front : List Volume,
    moments given writing = front.map (given, ·) ++ [(given, stored)] ∧
      ∀ u ∈ front, u.read path = .ok old
  granted : verdict = .ok () → stored.Sound ∧ stored.read path = .ok new
  refused : ∀ {failure}, verdict = .error failure → stored.read path = .ok old

/-- The moments of a replacement: its steps one by one, then the volume that it leaves. -/
private theorem volumes_replace (v : Volume) (plan : Plan) :
    (Deed.replace v plan).volumes =
      (List.range plan.steps.length).map (fun n => v.performAll (plan.steps.take n)) ++
        [v.performAll plan.steps] := by
  rw [Deed.volumes, List.range_succ, List.map_append, List.map_singleton, List.take_length]

private theorem read_before_last {v : Volume} {draw : Draw} {path content old : Bytes}
    (read : v.read path = .ok old) {n : Nat}
    (hn : n < (v.replacement draw path content).steps.length) :
    (v.performAll ((v.replacement draw path content).steps.take n)).read path = .ok old := by
  rcases extends_performAll_take v draw path content n with he | ⟨-, ht⟩
  · exact read_extends read he
  · have hlen := congrArg List.length ht
    rw [List.length_take] at hlen
    omega

private theorem read_refused {v : Volume} {draw : Draw} {path content old : Bytes} {fault : Fault}
    (read : v.read path = .ok old) (h : (v.replacement draw path content).verdict = .error fault) :
    (v.performAll (v.replacement draw path content).steps).read path = .ok old := by
  have hx :=
    extends_performAll_take v draw path content (v.replacement draw path content).steps.length
  rw [List.take_length] at hx
  rcases hx with he | ⟨hv, -⟩
  · exact read_extends read he
  · rw [h] at hv
    cases hv

/-- A write takes the steps of its replacement, and is granted if the replacement is. -/
theorem persist_cases (job : Job) (occasion : Occasion) (m : Metadata) (v : Volume) :
    ((job.rewriting occasion m v).verdict = .ok () ∧
      job.persist occasion m v =
        ([.event updating, .replace v (job.rewriting occasion m v),
          .event (.log .debug (Metadata.persistedNote (v.replacedPath job.settings.mpath) m))],
          .ok (), v.performAll (job.rewriting occasion m v).steps)) ∨
    ∃ fault, (job.rewriting occasion m v).verdict = .error fault ∧
      job.persist occasion m v =
        ([.event updating, .replace v (job.rewriting occasion m v)],
          .error (.io fault), v.performAll (job.rewriting occasion m v).steps) := by
  have hr : v.replace (job.draws occasion) job.settings.mpath (Text.encode m.render) =
      ((job.rewriting occasion m v).verdict,
        v.performAll (job.rewriting occasion m v).steps) := rfl
  -- The definitions are opened by `delta`, since their equations take long to derive.
  delta Job.persist Metadata.persist
  cases hv : (job.rewriting occasion m v).verdict with
  | ok done =>
    left
    simp only [hr, hv, List.cons_append, List.nil_append, and_self]
  | error fault =>
    right
    exact ⟨fault, rfl, by simp only [hr, hv]⟩

/-- What a write comes to, what is done and logged apart. -/
theorem persist_snd (job : Job) (occasion : Occasion) (m : Metadata) (v : Volume) :
    (job.persist occasion m v).2 = m.persist v (job.draws occasion) job.settings.mpath := by
  unfold Job.persist
  dsimp only
  split
  · rename_i h
    exact h.symm
  · rename_i h
    exact h.symm

theorem persistAt_snd (job : Job) (occasion : Occasion) (m : Metadata) (v : Volume) :
    (job.persistAt occasion m v).2 = if job.settings.persistence = occasion.policy then
      m.persist v (job.draws occasion) job.settings.mpath else (.ok (), v) := by
  unfold Job.persistAt
  split
  · exact persist_snd job occasion m v
  · rfl

section
variable {job : Job} {occasion : Occasion} {m : Metadata} {v stored : Volume} {writing : List Deed}

theorem calls_persistAt {verdict : Except Failure Unit}
    (h : job.persistAt occasion m v = (writing, verdict, stored)) : calls writing = [] := by
  unfold Job.persistAt at h
  split at h
  · rcases persist_cases job occasion m v with ⟨-, hp⟩ | ⟨fault, -, hp⟩
    · cases hp.symm.trans h
      rfl
    · cases hp.symm.trans h
      rfl
  · cases h
    rfl

/-- No deed of a granted write fails. -/
theorem not_fails_of_granted (h : job.persistAt occasion m v = (writing, .ok (), stored)) :
    ∀ deed ∈ writing, ¬ deed.Fails := by
  unfold Job.persistAt at h
  split at h
  · rcases persist_cases job occasion m v with ⟨hv, hp⟩ | ⟨fault, -, hp⟩
    · cases hp.symm.trans h
      rintro deed hm (_ | ⟨_, steps, fault⟩)
      · simp [updating, say] at hm
      · simp only [List.mem_cons, reduceCtorEq, Deed.replace.injEq, false_or, List.not_mem_nil,
          or_false] at hm
        rw [← hm.2] at hv
        cases hv
    · cases hp.symm.trans h
  · cases h
    simp

/-- A write that is due is refused where no temporary file can be had. -/
theorem persistAt_refused {fault : Fault} (due : job.settings.persistence = occasion.policy)
    (h : v.temporaryFor (job.draws occasion) (v.replacedPath job.settings.mpath) = .error fault) :
    (job.persistAt occasion m v).2.1 = .error (.io fault) := by
  rw [persistAt_snd, if_pos due]
  simp only [Metadata.persist, replace_refused (.inl h)]

/-- A refused write is a refused replacement, and the last that is done. -/
theorem writing_of_refused {failure : Failure}
    (h : job.persistAt occasion m v = (writing, .error failure, stored)) :
    ∃ plan fault, job.settings.persistence = occasion.policy ∧
      writing = [.event updating, .replace v plan] ∧ plan.verdict = .error fault ∧
      failure = .io fault := by
  unfold Job.persistAt at h
  split at h
  · rename_i ht
    rcases persist_cases job occasion m v with ⟨-, hp⟩ | ⟨fault, hv, hp⟩
    · cases hp.symm.trans h
    · cases hp.symm.trans h
      exact ⟨_, fault, ht, rfl, hv, rfl⟩
  · cases h

theorem replace_mem_of_refused {failure : Failure}
    (h : job.persistAt occasion m v = (writing, .error failure, stored)) :
    ∃ before plan fault, plan.verdict = .error fault ∧ Deed.replace before plan ∈ writing := by
  obtain ⟨plan, fault, -, rfl, hv, -⟩ := writing_of_refused h
  exact ⟨v, plan, fault, hv, by simp⟩

/-- A granted write replaces the metadata file. -/
theorem replace_of_persist (h : job.persist occasion m v = (writing, .ok (), stored)) :
    v.replace (job.draws occasion) job.settings.mpath (Text.encode m.render) =
      (.ok (), stored) := by
  rcases persist_cases job occasion m v with ⟨hv, hp⟩ | ⟨fault, -, hp⟩
  · cases hp.symm.trans h
    exact congrArg (·, _) hv
  · cases hp.symm.trans h

/-- A granted write is one replacement, with nothing but quiet deeds behind it. -/
theorem writing_of_persist (h : job.persist occasion m v = (writing, .ok (), stored)) :
    ∃ plan behind, writing = .event updating :: .replace v plan :: behind ∧ Quiet behind := by
  rcases persist_cases job occasion m v with ⟨-, hp⟩ | ⟨fault, -, hp⟩
  · cases hp.symm.trans h
    exact ⟨_, _, rfl, by simp [Quiet, Deed.call?, Deed.volumes]⟩
  · cases hp.symm.trans h

theorem replace_of_persistAt (h : job.persistAt occasion m v = (writing, .ok (), stored)) :
    stored = v ∨
      v.replace (job.draws occasion) job.settings.mpath (Text.encode m.render) =
        (.ok (), stored) := by
  unfold Job.persistAt at h
  split at h
  · exact .inr (replace_of_persist h)
  · cases h
    exact .inl rfl

end

private theorem moments_writing (v : Volume) (plan : Plan) {behind : List Deed}
    (h : Quiet behind) (given : List Output) :
    moments given (.event updating :: .replace v plan :: behind) =
      ((List.range plan.steps.length).map fun n => v.performAll (plan.steps.take n)).map
        (given, ·) ++ [(given, v.performAll plan.steps)] := by
  simp only [moments, volumes_replace, h.moments, List.append_nil]
  simp [updating, say, Deed.volumes, calls, Deed.call?, outputs]

theorem writes_of_persist {job : Job} {occasion : Occasion} {m : Metadata} {v stored : Volume}
    {old : Bytes} {writing : List Deed} {verdict : Except Failure Unit} (sound : v.Sound)
    (read : v.read job.settings.mpath = .ok old)
    (h : job.persist occasion m v = (writing, verdict, stored)) :
    Writes job.settings.mpath old (Text.encode m.render) writing verdict stored := by
  have hfront : ∀ u ∈ (List.range (job.rewriting occasion m v).steps.length).map
      fun n => v.performAll ((job.rewriting occasion m v).steps.take n),
      u.read job.settings.mpath = .ok old := by
    intro u hu
    obtain ⟨n, hn, rfl⟩ := List.mem_map.mp hu
    exact read_before_last read (List.mem_range.mp hn)
  rcases persist_cases job occasion m v with ⟨hv, hp⟩ | ⟨fault, hv, hp⟩
  · cases hp.symm.trans h
    have hr : v.replace (job.draws occasion) job.settings.mpath (Text.encode m.render) =
        (.ok (), v.performAll (job.rewriting occasion m v).steps) :=
      congrArg (·, _) hv
    refine ⟨fun given => ⟨_, moments_writing v _ ?_ given, hfront⟩, fun _ => ⟨?_, ?_⟩, ?_⟩
    · simp [Quiet, Deed.call?, Deed.volumes]
    · exact sound_replace sound hr
    · exact read_replace sound read hr
    · intro failure impossible
      cases impossible
  · cases hp.symm.trans h
    refine ⟨fun given => ⟨_, moments_writing v _ ?_ given, hfront⟩, ?_, fun _ => ?_⟩
    · simp [Quiet]
    · intro impossible
      cases impossible
    · exact read_refused read hv

end BlockPurge.Purge
