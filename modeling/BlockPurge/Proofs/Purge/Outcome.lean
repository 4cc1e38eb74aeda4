import BlockPurge.Proofs.Purge.Shape

/-!
# What a real run leaves

Over all moments of a real run the file goes from its text to that text with more and more outcomes
recorded. A run that completes has recorded every answer; one that ends early holds what its loop or
its last write left there. The candidates are called for in order, and a failure is the end of all
calls.
-/
namespace BlockPurge.Purge

section
variable {job : Job} {path : Bytes} {content : String} {m : Metadata} {time : Persistence}

/-- The invariant of the loop holds before the first candidate. -/
theorem pending_start {v w : Volume} {backup : Bytes} (h : Metadata.Stored v path content m)
    (sound : v.Sound) (taken : Backup.take v path = .ok (backup, w)) :
    Pending path content m time [] m.candidates m w where
  memory := (Metadata.after_nil m).symm
  candidates := rfl
  sound := Backup.sound_take taken sound
  read := by
    have hn : time.recorded [] = [] := by cases time <;> rfl
    rw [hn]
    exact (Backup.read_take taken).trans h.read

end

/-! ## The write that closes a run -/

section
variable {job : Job} {path : Bytes} {content : String} {m : Metadata} {time : Persistence}
  {stretch : Stretch} {answers : List Output} {writing : List Deed} {stored : Volume}
  (hpath : job.settings.mpath = path) (htime : job.settings.persistence = time)
  (hp : Pending path content m time answers [] stretch.metadata stretch.volume)
  (hlen : answers.length = m.candidates.length)
include hpath htime hp hlen

/-- The write takes place if outcomes are recorded on completion and there was something to erase.
-/
private theorem closing_rising {verdict : Except Failure Unit} (hne : m.candidates ≠ [])
    (ht : time = .onCompletion)
    (hw : job.persist .completion stretch.metadata stretch.volume = (writing, verdict, stored)) :
    (verdict = .ok () → Shows path content m time answers (answers, stored) ∧
      Rising (Shows path content m time) [] (moments answers writing) answers) ∧
    ∀ {failure}, verdict = .error failure → Shows path content m time [] (answers, stored) ∧
      Rising (Shows path content m time) [] (moments answers writing) [] := by
  subst hpath ht
  have hanswers : answers.isEmpty = false := by
    rw [List.isEmpty_eq_false_iff, ← List.length_pos_iff, hlen]
    exact List.length_pos_iff.mpr hne
  have hw := writes_of_persist hp.sound hp.read hw
  rw [hp.memory] at hw
  have hwrites : Writes job.settings.mpath (Text.encode (m.textAfter content []))
      (Text.encode (m.textAfter content answers)) writing verdict stored := by
    rw [Metadata.textAfter, Metadata.textAfter, hanswers]
    exact hw
  have lag : Persistence.onCompletion = .perBlock →
      answers.length ≤ ([] : List Output).length + 1 := by
    intro impossible
    cases impossible
  exact hwrites.rising List.nil_prefix (List.prefix_refl answers) lag

/-- Granted, it leaves all answers recorded. -/
private theorem closing_granted (hc : closing job m stretch = (writing, .ok (), stored)) :
    Shows path content m time answers (answers, stored) ∧
      Rising (Shows path content m time) (time.recorded answers) (moments answers writing)
        answers := by
  rcases closing_cases hc with ⟨he, rfl, -, rfl⟩ | ⟨hne, ht, hw⟩
  · have ha : time.recorded answers = answers := by
      rcases he with he | ht
      · rw [he] at hlen
        rw [List.length_eq_zero_iff.mp hlen]
        cases time <;> rfl
      · rw [← htime, ht]
        rfl
    have hs := hp.shows
    rw [ha] at hs ⊢
    exact ⟨hs, .still answers⟩
  · have honce : time = .onCompletion := htime.symm.trans ht
    have hnone : time.recorded answers = [] := by
      rw [honce]
      rfl
    rw [hnone]
    exact (closing_rising hpath htime hp hlen hne honce hw).1 rfl

/-- Refused, it leaves the file as it was. -/
private theorem closing_refused {failure : Failure}
    (hc : closing job m stretch = (writing, .error failure, stored)) :
    time = .onCompletion ∧ Shows path content m time [] (answers, stored) ∧
      Rising (Shows path content m time) [] (moments answers writing) [] := by
  rcases closing_cases hc with ⟨-, -, hv, -⟩ | ⟨hne, ht, hw⟩
  · cases hv
  · have honce : time = .onCompletion := htime.symm.trans ht
    exact ⟨honce, (closing_rising hpath htime hp hlen hne honce hw).2 rfl⟩

end

/-! ## The whole run -/

section
variable {job : Job} {content : String} {m : Metadata} {v after : Volume} {main : List Deed}
  {result : Except Failure Report}

/-- What the file holds over the main deeds of a real run, and when they are done. -/
theorem Goes.rising (h : Goes job m v main after result)
    (stored : Metadata.Stored v job.settings.mpath content m) (sound : v.Sound)
    (spares : job.utility.Spares job.settings.mpath) :
    ∃ held, Rising (Shows job.settings.mpath content m job.settings.persistence) []
        (moments [] main) held ∧
      Shows job.settings.mpath content m job.settings.persistence held
        (outputs (calls main), after) ∧
      (job.settings.persistence = .onCompletion → (∃ failure, result = .error failure) →
        held = []) ∧
      ∀ report, result = .ok report →
        held = outputs (calls main) ∧ (outputs (calls main)).length = m.candidates.length := by
  have hnil : job.settings.persistence.recorded [] = [] := by
    cases job.settings.persistence <;> rfl
  cases h with
  | refused =>
    refine ⟨[], .still [], ⟨stored.read, List.nil_prefix, fun _ => Nat.zero_le _⟩,
      fun _ _ => rfl, ?_⟩
    intro report impossible
    cases impossible
  | stopped taken hloop hres =>
    obtain ⟨held, row, shows, hnone, -⟩ :=
      hloop.rising spares rfl rfl (pending_start stored sound taken)
    rw [hnil] at row
    refine ⟨held, row, shows, fun ht _ => hnone ht, ?_⟩
    intro report impossible
    cases impossible
  | @unrecorded _ _ _ stretch _ _ _ taken hloop hres hc =>
    obtain ⟨held, row, -, -, hok⟩ := hloop.rising spares rfl rfl (pending_start stored sound taken)
    obtain ⟨rfl, hp⟩ := hok _ hres
    rw [List.nil_append] at *
    obtain ⟨ht, shows, row'⟩ := closing_refused rfl rfl hp (hloop.reports hres).1 hc
    have hheld : job.settings.persistence.recorded (outputs (calls stretch.deeds)) = [] := by
      rw [ht]
      rfl
    rw [hnil, hheld] at row
    rw [moments_append, calls_append, calls_closing hc, List.append_nil]
    refine ⟨[], row.append row', shows, fun _ _ => rfl, ?_⟩
    intro report impossible
    cases impossible
  | completed taken hloop hres hc =>
    obtain ⟨held, row, -, -, hok⟩ := hloop.rising spares rfl rfl (pending_start stored sound taken)
    obtain ⟨rfl, hp⟩ := hok _ hres
    rw [List.nil_append] at *
    obtain ⟨shows, row'⟩ := closing_granted rfl rfl hp (hloop.reports hres).1 hc
    rw [hnil] at row
    rw [moments_append, calls_append, calls_closing hc, List.append_nil]
    refine ⟨_, row.append row', shows, ?_, ?_⟩
    · intro _ impossible
      obtain ⟨failure, hf⟩ := impossible
      cases hf
    · intro report _
      exact ⟨rfl, (hloop.reports hres).1⟩

/-- The calls of a real run are those of its loop. -/
theorem Goes.loop (h : Goes job m v main after result) :
    calls main = [] ∨ ∃ backup w stretch, Backup.take v job.settings.mpath = .ok (backup, w) ∧
      Erases job m.candidates m w stretch ∧ calls main = calls stretch.deeds ∧
      ∀ failure, stretch.result = .error failure →
        result = .error failure ∧ after = stretch.volume := by
  cases h with
  | refused => exact .inl rfl
  | stopped taken hloop hres =>
    refine .inr ⟨_, _, _, taken, hloop, rfl, ?_⟩
    intro failure hf
    cases hres.symm.trans hf
    exact ⟨rfl, rfl⟩
  | unrecorded taken hloop hres hc =>
    refine .inr ⟨_, _, _, taken, hloop, ?_, fun failure hf => ?_⟩
    · rw [calls_append, calls_closing hc, List.append_nil]
    · cases hres.symm.trans hf
  | completed taken hloop hres hc =>
    refine .inr ⟨_, _, _, taken, hloop, ?_, fun failure hf => ?_⟩
    · rw [calls_append, calls_closing hc, List.append_nil]
    · cases hres.symm.trans hf

/-- A real run calls for the first candidates, in order. -/
theorem Goes.commands (h : Goes job m v main after result) :
    (calls main).map Call.command =
      (m.candidates.take (calls main).length).map fun candidate => job.command candidate.1 := by
  rcases h.loop with hc | ⟨_, _, _, -, hloop, hc, -⟩
  · simp [hc]
  · rw [hc]
    exact hloop.commands

/-- The call with number `k` of a real run is for the candidate with number `k`. -/
theorem Goes.command_at (h : Goes job m v main after result) {k : Nat} {call : Call}
    (hk : (calls main)[k]? = some call) :
    ∃ block, m.candidateBlocks[k]? = some block ∧ call.command = job.command block := by
  have hc := congrArg (·[k]?) h.commands
  simp only [List.getElem?_map, hk, Option.map_some] at hc
  obtain ⟨candidate, hcand, hcommand⟩ := Option.map_eq_some_iff.mp hc.symm
  have hlt := (List.getElem?_eq_some_iff.mp hk).1
  rw [List.getElem?_take_of_lt hlt] at hcand
  refine ⟨candidate.1, ?_, hcommand.symm⟩
  rw [Metadata.candidateBlocks, List.getElem?_map, hcand]
  rfl

/-- A call has the answer that the utility gives on the volume it finds. -/
theorem Goes.called (h : Goes job m v main after result) :
    ∀ call ∈ calls main, call.answer = (job.utility call.before call.command).1 := by
  rcases h.loop with hc | ⟨_, _, _, -, hloop, hc, -⟩
  · simp [hc]
  · rw [hc]
    exact hloop.called

/-- Every call of a real run is answered, or the last one alone is not. -/
theorem Goes.answered (h : Goes job m v main after result) :
    (calls main).map Call.answer = (outputs (calls main)).map .ok ∨
    ∃ failure, result = .error failure ∧
      (calls main).map Call.answer = (outputs (calls main)).map .ok ++ [.error failure] := by
  rcases h.loop with hc | ⟨_, _, _, -, hloop, hc, hres⟩
  · exact .inl (by rw [hc]; rfl)
  · rw [hc]
    exact hloop.answered.imp_right fun ⟨failure, hf, ha⟩ => ⟨failure, (hres failure hf).1, ha⟩

/-- Before any call of a real run all earlier ones have been answered. -/
theorem Goes.answered_before (h : Goes job m v main after result) {k : Nat} {call : Call}
    (hk : (calls main)[k]? = some call) :
    ((outputs (calls main)).take k).length = k ∧
      ((calls main).take k).map Call.answer = ((outputs (calls main)).take k).map .ok := by
  obtain ⟨hlt, -⟩ := List.getElem?_eq_some_iff.mp hk
  rw [List.map_take, List.map_take, List.length_take]
  rcases h.answered with ha | ⟨failure, -, ha⟩
  · have hlen := congrArg List.length ha
    rw [List.length_map, List.length_map] at hlen
    exact ⟨by omega, by rw [ha]⟩
  · have hlen := congrArg List.length ha
    rw [List.length_append, List.length_map, List.length_map, List.length_singleton] at hlen
    have hle : k ≤
        ((outputs (calls main)).map Except.ok : List (Except Failure Output)).length := by
      rw [List.length_map]
      omega
    exact ⟨by omega, by rw [ha, List.take_append_of_le_length hle]⟩

/-- What the file holds when a real run makes a call. -/
theorem Goes.read_at_call (h : Goes job m v main after result)
    (stored : Metadata.Stored v job.settings.mpath content m) (sound : v.Sound)
    (spares : job.utility.Spares job.settings.mpath) {k : Nat} {call : Call}
    (hk : (calls main)[k]? = some call) :
    call.before.read job.settings.mpath = .ok (Text.encode (m.textAfter content
      (job.settings.persistence.recorded ((outputs (calls main)).take k)))) := by
  rcases h.loop with hc | ⟨_, _, _, taken, hloop, hc, -⟩
  · simp [hc] at hk
  · rw [hc] at hk ⊢
    exact hloop.read_at_call spares rfl rfl (pending_start stored sound taken) hk

/-- A call without an answer ends a real run and leaves the volume as the utility does. -/
theorem Goes.volume_of_unanswered (h : Goes job m v main after result) {call : Call}
    (hm : call ∈ calls main) {failure : Failure} (hf : call.answer = .error failure) :
    result = .error failure ∧ after = (job.utility call.before call.command).2 := by
  rcases h.loop with hc | ⟨_, _, _, -, hloop, hc, hres⟩
  · simp [hc] at hm
  · obtain ⟨hr, hv⟩ := hloop.volume_of_unanswered (hc ▸ hm) hf
    exact hv ▸ hres failure hr

/-- Recording block by block, a call without an answer leaves all other answers recorded. -/
theorem Goes.read_of_unanswered (h : Goes job m v main after result)
    (stored : Metadata.Stored v job.settings.mpath content m) (sound : v.Sound)
    (spares : job.utility.Spares job.settings.mpath) (ht : job.settings.persistence = .perBlock)
    {call : Call} (hm : call ∈ calls main) {failure : Failure} (hf : call.answer = .error failure) :
    after.read job.settings.mpath =
      .ok (Text.encode (m.textAfter content (outputs (calls main)))) := by
  obtain ⟨k, hk⟩ := List.getElem?_of_mem hm
  have hread := h.read_at_call stored sound spares hk
  rw [ht, ← spares.read call.before call.command, ← (h.volume_of_unanswered hm hf).2] at hread
  have hanswer : ((calls main).map Call.answer)[k]? = some (.error failure) := by
    rw [List.getElem?_map, hk, Option.map_some, hf]
  have hlast : (outputs (calls main)).length ≤ k := by
    apply Nat.le_of_not_lt
    intro hlt
    have hok : ((outputs (calls main)).map Except.ok : List (Except Failure Output))[k]? =
        some (.error failure) := by
      rcases h.answered with ha | ⟨last, -, ha⟩
      · exact ha ▸ hanswer
      · rw [ha, List.getElem?_append_left (by rw [List.length_map]; exact hlt)] at hanswer
        exact hanswer
    simp [List.getElem?_map, List.getElem?_eq_getElem hlt] at hok
  rw [Persistence.recorded, List.take_of_length_le hlast] at hread
  exact hread

/-- No call follows a failed deed. -/
theorem Goes.stopsAtFailure (h : Goes job m v main after result) : StopsAtFailure main := by
  cases h with
  | refused => exact .nil
  | stopped _ hloop _ => exact hloop.stopsAtFailure
  | unrecorded _ hloop _ hc =>
    exact stopsAtFailure_append hloop.stopsAtFailure (stopsAtFailure_of_calls (calls_closing hc))
      (.inr (calls_closing hc))
  | completed _ hloop _ hc =>
    exact stopsAtFailure_append hloop.stopsAtFailure (stopsAtFailure_of_calls (calls_closing hc))
      (.inr (calls_closing hc))

/-- With everything answered and granted a real run completes, and reports on all candidates. -/
theorem Goes.completes (h : Goes job m v main after result)
    (valid : job.settings.validate = .ok ()) {backup : Bytes} {w : Volume}
    (taken : Backup.take v job.settings.mpath = .ok (backup, w))
    (answers : ∀ call ∈ calls main, ∃ output, call.answer = .ok output)
    (writes : ∀ before plan, Deed.replace before plan ∈ main → plan.verdict = .ok ()) :
    result = .ok (reportOf job m backup
      (List.zipWith Job.report m.candidates (outputs (calls main)))) := by
  cases h with
  | refused hr => exact absurd taken (hr valid _)
  | stopped _ hloop hres =>
    obtain ⟨reports, hok⟩ := hloop.completes answers writes
    cases hres.symm.trans hok
  | unrecorded _ _ _ hc =>
    rcases closing_eq_persistAt hc with ⟨-, ⟨⟩⟩ | hp
    obtain ⟨before, plan, fault, hv, hm⟩ := replace_mem_of_refused hp
    cases (writes before plan (List.mem_append_right _ hm)).symm.trans hv
  | completed hb hloop hres hc =>
    obtain ⟨rfl, rfl⟩ := Prod.mk.inj (Except.ok.inj (hb.symm.trans taken))
    rw [calls_append, calls_closing hc, List.append_nil, (hloop.reports hres).2]

/-- A real run that reports has called for all candidates, and draws its report from the answers. -/
theorem Goes.reported {report : Report} (h : Goes job m v main after (.ok report)) :
    ∃ backup w, Backup.take v job.settings.mpath = .ok (backup, w) ∧
      (calls main).map Call.command =
        m.candidates.map (fun candidate => job.command candidate.1) ∧
      (outputs (calls main)).length = m.candidates.length ∧
      report = reportOf job m backup
        (List.zipWith Job.report m.candidates (outputs (calls main))) := by
  cases h with
  | completed taken hloop hres hc =>
    obtain ⟨hlen, hblocks⟩ := hloop.reports hres
    rw [calls_append, calls_closing hc, List.append_nil]
    exact ⟨_, _, taken, hloop.commands_all hres, hlen, congrArg _ hblocks⟩

end

end BlockPurge.Purge
