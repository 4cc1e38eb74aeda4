import BlockPurge.Proofs.Metadata.Tally
import BlockPurge.Proofs.Purge.Completion

/-!
# The counts of a report

A report counts blocks by their outcomes, and takes the rest of the blocks to have been skipped. If
nobody but the run writes its file, the file bears the report out: as many blocks as it counts as
erased were candidates before and are recorded as erased now, as many as it counts as failed are
recorded as failed, and those that it counts as skipped were no candidates. Of the utility only what
it does in the calls of the run matters, so nothing is asked of it on volumes that the run never
sees.
-/
namespace BlockPurge

/-- What a real run reports of a block with an answer. -/
def Output.outcome (output : Output) : Purge.Outcome :=
  if output.succeeded then .erased else .failed

theorem Output.outcome_eq_erased_iff (output : Output) :
    output.outcome = .erased ↔ output.state.code = 0x02 := by
  unfold outcome state
  split <;> decide

theorem Output.outcome_eq_failed_iff (output : Output) :
    output.outcome = .failed ↔ output.state.code = 0x08 := by
  unfold outcome state
  split <;> decide

/-- A real run reports a block as erased or as failed. -/
theorem Output.outcome_eq_failed_iff_not (output : Output) :
    output.outcome = .failed ↔ ¬ output.outcome = .erased := by
  unfold outcome
  split <;> decide

/-! ## Calls that spare a file -/

/-- The calls of a row leave what a path reads as. -/
structure Utility.SparesDuring (utility : Utility) (path : Bytes) (row : List Purge.Call) :
    Prop where
  read : ∀ call ∈ row, (utility call.before call.command).2.read path = call.before.read path
  sound : ∀ call ∈ row, call.before.Sound → (utility call.before call.command).2.Sound

open Classical in
/-- A utility that does what another does in the calls of a row, and nothing otherwise. -/
noncomputable def Utility.during (utility : Utility) (row : List Purge.Call) : Utility :=
  fun v command =>
    if ∃ call ∈ row, call.before = v ∧ call.command = command then utility v command
    else (.ok .silent, v)

theorem Utility.SparesDuring.during {utility : Utility} {path : Bytes} {row : List Purge.Call}
    (h : utility.SparesDuring path row) : (utility.during row).Spares path where
  read v command := by
    unfold Utility.during
    split
    · rename_i hcall
      obtain ⟨call, hm, rfl, rfl⟩ := hcall
      exact h.read call hm
    · rfl
  sound v command sound := by
    unfold Utility.during
    split
    · rename_i hcall
      obtain ⟨call, hm, rfl, rfl⟩ := hcall
      exact h.sound call hm sound
    · exact sound

namespace Purge

open Metadata (turned bystanders)

/-! ## What a report counts -/

/-- A report on metadata counts what is recorded now. -/
structure Report.Tallies (report : Report) (before now : Metadata) : Prop where
  total : report.total = before.size
  erased : report.erased = turned before.codes now.codes 0x02
  failed : report.failed = turned before.codes now.codes 0x08
  skipped : report.skipped = bystanders before.codes
  /-- No block is counted twice or not at all. -/
  sum : report.erased + report.failed + report.skipped = report.total

theorem count_reports (outcome : Outcome) {candidates : List (Nat × BlockState)}
    {answers : List Output} (hlen : answers.length = candidates.length) :
    (List.zipWith Job.report candidates answers).countP (·.outcome = outcome) =
      answers.countP (·.outcome = outcome) := by
  induction answers generalizing candidates with
  | nil => simp
  | cons output answers ih =>
    cases candidates with
    | nil => cases hlen
    | cons candidate rest =>
      rw [List.zipWith_cons_cons, List.countP_cons, List.countP_cons, ih (Nat.succ.inj hlen)]
      rfl

/-- What is recorded of the answers to a whole run is what its report counts. -/
theorem tallies_reportOf (job : Job) (backup : Bytes) {m : Metadata} {answers : List Output}
    (sound : m.Sound) (hlen : answers.length = m.candidates.length) :
    (reportOf job m backup (List.zipWith Job.report m.candidates answers)).Tallies m
      (m.after answers) := by
  have hturned : ∀ code : UInt8, code ≠ 0x01 ∧ code ≠ 0x04 →
      turned m.codes (m.after answers).codes code = answers.countP (·.state.code = code) := by
    intro code hcode
    have hblocks : answers.length ≤ m.candidateBlocks.length := by
      rw [hlen, Metadata.candidateBlocks, List.length_map]
    rw [Metadata.turned_after (fun index hm => Metadata.code_of_mem_candidateBlocks hm) hcode
      hblocks,
      Metadata.turned_self hcode, Nat.zero_add]
  generalize hr : reportOf job m backup (List.zipWith Job.report m.candidates answers) = report
  have hcount : ∀ outcome, report.count outcome = answers.countP (·.outcome = outcome) := by
    intro outcome
    rw [← hr]
    exact count_reports outcome hlen
  have hboth : report.erased + report.failed = m.candidates.length := by
    rw [Report.erased, Report.failed, hcount, hcount, ← hlen,
      List.length_eq_countP_add_countP fun output : Output => decide (output.outcome = .erased)]
    congr 1
    exact List.countP_congr fun output _ => by simp [output.outcome_eq_failed_iff_not]
  have hskipped : report.skipped = m.size - m.candidates.length := by
    rw [← hr, Report.skipped, reportOf, List.length_zipWith, hlen, Nat.min_self]
  have hsize := Metadata.candidates_add_bystanders sound
  have htotal : report.total = m.size := by
    rw [← hr]
    rfl
  constructor
  case total => exact htotal
  case erased =>
    rw [hturned 0x02 (by decide), Report.erased, hcount]
    exact List.countP_congr fun output _ => by simp [output.outcome_eq_erased_iff]
  case failed =>
    rw [hturned 0x08 (by decide), Report.failed, hcount]
    exact List.countP_congr fun output _ => by simp [output.outcome_eq_failed_iff]
  case skipped => omega
  case sum => omega

/-! ## What a run does not notice of its utility -/

section
variable {job : Job} {utility : Utility} {m : Metadata} {v : Volume}

/-- The loop goes the same way with a utility that answers its calls in the same way. -/
theorem Erases.substitute {left : List (Nat × BlockState)} {stretch : Stretch}
    (h : Erases job left m v stretch)
    (agree : ∀ call ∈ calls stretch.deeds,
      utility call.before call.command = job.utility call.before call.command) :
    Erases { job with utility := utility } left m v stretch := by
  induction h with
  | done => exact .done _ _
  | unanswered ha =>
    rw [calls_erasing] at agree
    exact .unanswered ((agree _ (List.mem_singleton_self _)).trans ha)
  | unrecorded ha hw =>
    rw [calls_written hw] at agree
    exact .unrecorded ((agree _ (List.mem_singleton_self _)).trans ha) hw
  | recorded ha hw _ ih =>
    rw [calls_after hw] at agree
    obtain ⟨hfirst, hrest⟩ := List.forall_mem_cons.mp agree
    exact .recorded (hfirst.trans ha) hw (ih hrest)

/-- So does the run. -/
theorem Goes.substitute {main : List Deed} {after : Volume} {result : Except Failure Report}
    (h : Goes job m v main after result) (utility : Utility)
    (agree : ∀ call ∈ calls main,
      utility call.before call.command = job.utility call.before call.command) :
    Goes { job with utility := utility } m v main after result := by
  cases h with
  | refused hr => exact .refused hr
  | stopped taken hloop hres => exact .stopped taken (hloop.substitute agree) hres
  | unrecorded taken hloop hres hc =>
    rw [calls_append, calls_closing hc, List.append_nil] at agree
    exact .unrecorded taken (hloop.substitute agree) hres hc
  | completed taken hloop hres hc =>
    rw [calls_append, calls_closing hc, List.append_nil] at agree
    exact .completed taken (hloop.substitute agree) hres hc

end

/-- A real run that completes, and whose file nobody else writes, leaves what its report counts. -/
theorem run_tallies {settings : Settings} {utility : Utility} {bar : Nat} {draws : Draws}
    {v : Volume}
    {report : Report} (sound : v.Sound) (real : settings.dryRun = false)
    (spares : utility.SparesDuring settings.mpath (run settings utility bar draws v).calls)
    (completed : (run settings utility bar draws v).result = .ok report) :
    ∃ content m content' now, Metadata.Stored v settings.mpath content m ∧
      Metadata.Stored (run settings utility bar draws v).volume settings.mpath content' now ∧
      report.Tallies m now ∧ report.device = settings.deviceStart ++ m.device ∧
      report.dryRun = false ∧ ∃ w, Backup.take v settings.mpath = .ok (report.backup, w) := by
  obtain ⟨m, load⟩ := load_of_completed completed
  obtain ⟨content, stored⟩ := Metadata.stored_of_load load
  obtain ⟨main, around, hgoes⟩ := goes utility bar draws stored real
  rw [completed] at hgoes
  rw [around.calls] at spares
  have hgoes' := hgoes.substitute (utility.during (calls main)) fun call hm =>
    if_pos ⟨call, hm, rfl, rfl⟩
  obtain ⟨held, -, shows, -, hok⟩ := hgoes'.rising stored sound spares.during
  obtain ⟨rfl, hlen⟩ := hok _ rfl
  obtain ⟨backup, w, taken, -, -, rfl⟩ := hgoes.reported
  exact ⟨content, m, _, _, stored, ⟨shows.read, Metadata.parse_textAfter stored.parsed _⟩,
    tallies_reportOf _ _ (Metadata.sound_of_parse stored.parsed) hlen, rfl, real, w, taken⟩

end Purge

end BlockPurge
