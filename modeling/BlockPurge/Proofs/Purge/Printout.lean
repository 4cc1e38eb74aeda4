import BlockPurge.Proofs.Progress.Printing
import BlockPurge.Proofs.Purge.Rehearsal
import BlockPurge.Proofs.Purge.Turns

/-!
# The printout of a run

On a line display that has shown nothing before, a run from its backup on prints its lines in a
fixed order: two to open, up to four for each candidate, and a last one that says how many
candidates were dealt with. The run and the display each keep a count of their own, the display that
of the steps forward; the two agree in every turn.
-/
namespace BlockPurge.Purge

open Progress

/-- The lines that open the printout of a run. -/
def headLines (settings : Settings) (m : Metadata) : List String :=
  ["dry: " ++ toString settings.dryRun ++ ", mpath: " ++ Path.display settings.mpath,
    "Purging " ++ (settings.deviceStart ++ m.device)]

/-- The line for a write, if a run makes one at a given time. -/
def updatingLines (settings : Settings) (time : Persistence) : List String :=
  if settings.persistence = time then ["Updating meta file"] else []

/-- The lines about a block whose turn it is and the call for it. Without an answer there is no line
about one. -/
def callLines (settings : Settings) (device : String) (block : Nat) (call : Call) : List String :=
  ["Erasing: \x7b blk: " ++ fourDigits block ++ ", dev: " ++ device ++ " \x7d",
      call.command.line] ++
    match call.answer with
    | .error _ => []
    | .ok output =>
      ("Result: \x7b " ++ output.summary ++ " \x7d") :: updatingLines settings .perBlock

/-- The lines about all calls of a run. -/
def turnLines (settings : Settings) (m : Metadata) (r : Run) : List String :=
  (m.candidateBlocks.zip r.calls).flatMap fun (block, call) =>
    callLines settings (settings.deviceStart ++ m.device) block call

/-- What a run on metadata prints from its backup on, by how it goes. -/
structure Printout (settings : Settings) (m : Metadata) (r : Run) (printed : String) : Prop where
  /-- A real run calls for all candidates, if it is always answered. -/
  completed : settings.dryRun = false → (∀ call ∈ r.calls, ∃ output, call.answer = .ok output) →
    r.calls.map Call.command = commandsFor settings m ∧
    printed = sheet (headLines settings m ++ turnLines settings m r ++
      (if m.candidates.length = 0 then [] else updatingLines settings .onCompletion) ++
      [finalLine ("Purged " ++ (settings.deviceStart ++ m.device)) m.candidates.length
        m.candidates.length])
  /-- Otherwise it is cut short by the call that is not. -/
  aborted : settings.dryRun = false → ∀ {k call failure}, r.calls[k]? = some call →
    call.answer = .error failure →
    r.calls.map Call.command = (commandsFor settings m).take (k + 1) ∧
    (∀ call ∈ r.calls.take k, ∃ output, call.answer = .ok output) ∧
    printed = sheet (headLines settings m ++ turnLines settings m r ++
      [finalLine "Aborted" k m.candidates.length])
  /-- A dry run calls for nothing, and prints the commands that a real one would call. -/
  rehearsed : settings.dryRun = true → r.calls = [] ∧
    printed = sheet (headLines settings m ++
      ((m.candidateBlocks.zip (commandsFor settings m)).flatMap fun (block, command) =>
        rehearsedLines (settings.deviceStart ++ m.device) block command) ++
      [finalLine ("Purged " ++ (settings.deviceStart ++ m.device)) m.candidates.length
        m.candidates.length])

/-! ## One turn -/

/-- The requests that events make of a display. -/
def requests (shown : List Progress.Event) : List Request :=
  shown.map Progress.Event.request

theorem requests_append (shown more : List Progress.Event) :
    requests (shown ++ more) = requests shown ++ requests more :=
  List.map_append

section
variable {job : Job} {bar done total : Nat}

theorem prints_updates (job : Job) (time : Persistence) (d : LineDisplay) :
    d.Prints (requests (job.updates time)) (updatingLines job.settings time) d := by
  unfold Job.updates updatingLines
  split
  · exact LineDisplay.prints_line d "Updating meta file"
  · exact LineDisplay.prints_nil d

theorem prints_announce (job : Job) (index : Nat) (d : LineDisplay) :
    d.Prints (requests (shownOf (job.announce index)))
      ["Erasing: \x7b blk: " ++ fourDigits index ++ ", dev: " ++ job.device ++ " \x7d",
        (job.command index).line] d :=
  ((LineDisplay.prints_message d _ _).append (LineDisplay.prints_line d _)).append
    (LineDisplay.prints_line d _)

theorem prints_conclude (output : Output) (h : done + 1 ≤ largestCount) :
    (LineDisplay.counting job.bar done total).Prints (requests (shownOf (job.conclude output)))
      ["Result: \x7b " ++ output.summary ++ " \x7d"]
      (LineDisplay.counting job.bar (done + 1) total) :=
  (LineDisplay.prints_line _ _).append (LineDisplay.prints_advance h)

/-- An answered turn takes the count one further. -/
theorem prints_turn_answered {block : Nat} {call : Call} {output : Output}
    (hc : call.command = job.command block) (ha : call.answer = .ok output)
    (h : done + 1 ≤ largestCount) :
    (LineDisplay.counting job.bar done total).Prints (requests (job.turn block call.answer))
      (callLines job.settings job.device block call)
      (LineDisplay.counting job.bar (done + 1) total) := by
  rw [callLines, ha, hc, Job.turn, requests_append, requests_append]
  exact ((prints_announce job block _).append (prints_conclude output h)).append
    (prints_updates job .perBlock _)

/-- A turn without an answer shows the count as it is. -/
theorem prints_turn_unanswered {block : Nat} {call : Call} {failure : Failure}
    (hc : call.command = job.command block) (ha : call.answer = .error failure) :
    (LineDisplay.counting job.bar done total).Prints (requests (job.turn block call.answer))
      (callLines job.settings job.device block call ++ [finalLine "Aborted" done total])
      ⟨job.bar, []⟩ := by
  rw [callLines, ha, hc, Job.turn, requests_append]
  exact (prints_announce job block _).append
    (LineDisplay.prints_finish job.bar done total "Aborted")

/-! ## All turns -/

/-- Turns that are all answered take the count as far as there are turns. -/
theorem prints_turns (done total : Nat) {row : List ((Nat × BlockState) × Call)}
    (hc : ∀ turn ∈ row, turn.2.command = job.command turn.1.1)
    (ha : ∀ turn ∈ row, ∃ output, turn.2.answer = .ok output)
    (h : done + row.length ≤ largestCount) :
    (LineDisplay.counting job.bar done total).Prints
      (requests (row.flatMap fun turn => job.turn turn.1.1 turn.2.answer))
      (row.flatMap fun turn => callLines job.settings job.device turn.1.1 turn.2)
      (LineDisplay.counting job.bar (done + row.length) total) := by
  induction row generalizing done with
  | nil => exact LineDisplay.prints_nil _
  | cons turn rest ih =>
    obtain ⟨hc, hcs⟩ := List.forall_mem_cons.mp hc
    obtain ⟨⟨output, ha⟩, has⟩ := List.forall_mem_cons.mp ha
    rw [List.length_cons, Nat.add_comm rest.length, ← Nat.add_assoc] at h ⊢
    rw [List.flatMap_cons, List.flatMap_cons, requests_append]
    exact (prints_turn_answered hc ha (Nat.le_of_add_right_le h)).append (ih (done + 1) hcs has h)

/-- So do the turns of a dry run, which get an answer without a call. -/
theorem prints_rehearsal (job : Job) (done total : Nat) {candidates : List (Nat × BlockState)}
    (h : done + candidates.length ≤ largestCount) :
    (LineDisplay.counting job.bar done total).Prints (requests (shownOf (job.rehearsal candidates)))
      (candidates.flatMap fun candidate =>
        rehearsedLines job.device candidate.1 (job.command candidate.1))
      (LineDisplay.counting job.bar (done + candidates.length) total) := by
  induction candidates generalizing done with
  | nil => exact LineDisplay.prints_nil _
  | cons candidate rest ih =>
    have hshown : shownOf (job.rehearsing candidate.1) =
        shownOf (job.announce candidate.1) ++ shownOf (job.conclude Output.silent) := by
      rw [Job.rehearsing, shownOf_append]
      rfl
    rw [List.length_cons, Nat.add_comm rest.length, ← Nat.add_assoc] at h ⊢
    rw [rehearsal_cons, shownOf_append, requests_append, hshown, requests_append]
    exact ((prints_announce job candidate.1 _).append
      (prints_conclude Output.silent (Nat.le_of_add_right_le h))).append (ih (done + 1) h)

/-! ## The opening and the end -/

theorem prints_opening {m : Metadata} (first : job.bar = 1) :
    LineDisplay.fresh.Prints (requests (shownOf (opening job m m.candidates)))
      ["dry: " ++ toString job.settings.dryRun ++ ", mpath: " ++
        Path.display job.settings.mpath, "Purging " ++ job.device]
      (LineDisplay.counting job.bar 0 m.candidates.length) := by
  rw [first]
  exact (LineDisplay.prints_line _ _).append (LineDisplay.prints_start _ _ _)

theorem prints_ending {m : Metadata} (report : Report) :
    (LineDisplay.counting job.bar done total).Prints (requests (job.ending m (.ok report)))
      ((if m.candidates.length = 0 then [] else updatingLines job.settings .onCompletion) ++
        [finalLine ("Purged " ++ job.device) done total]) ⟨job.bar, []⟩ := by
  rw [Job.ending, requests_append]
  refine LineDisplay.Prints.append ?_ (LineDisplay.prints_finish job.bar done total _)
  cases m.candidates with
  | nil => exact LineDisplay.prints_nil _
  | cons candidate rest => exact prints_updates job .onCompletion _

end

/-! ## The whole run -/

theorem turns_eq (job : Job) (left : List (Nat × BlockState)) (row : List Call) :
    job.turns left (row.map Call.answer) =
      (left.zip row).flatMap fun turn => job.turn turn.1.1 turn.2.answer := by
  rw [Job.turns, List.zip_map_right, List.flatMap_map]
  rfl

theorem turnLines_eq (settings : Settings) (m : Metadata) (r : Run) :
    turnLines settings m r = (m.candidates.zip r.calls).flatMap fun turn =>
      callLines settings (settings.deviceStart ++ m.device) turn.1.1 turn.2 := by
  rw [turnLines, Metadata.candidateBlocks, List.zip_map_left, List.flatMap_map]
  rfl

/-- The command of a turn is the one for its block. -/
theorem command_of_turn {job : Job} {left : List (Nat × BlockState)} {row : List Call}
    (h : row.map Call.command =
      (left.take row.length).map fun candidate => job.command candidate.1) :
    ∀ turn ∈ left.zip row, turn.2.command = job.command turn.1.1 := by
  induction row generalizing left with
  | nil => simp
  | cons call rest ih =>
    cases left with
    | nil => simp
    | cons candidate left =>
      obtain ⟨hfirst, hrest⟩ := List.cons.inj h
      exact List.forall_mem_cons.mpr ⟨hfirst, ih hrest⟩

section
variable {job : Job} {m : Metadata} {backup : Bytes} {r : Run}

theorem Told.length_le (h : Told job m backup r) : r.calls.length ≤ m.candidates.length := by
  have hlen := congrArg List.length h.commands
  rw [List.length_map, List.length_map, List.length_take] at hlen
  omega

/-- A run that is always answered prints a line for its end. -/
theorem Told.prints_completed (h : Told job m backup r) (first : job.bar = 1)
    (small : m.candidates.length ≤ largestCount)
    (answers : ∀ call ∈ r.calls, ∃ output, call.answer = .ok output) :
    r.calls.length = m.candidates.length ∧
    LineDisplay.fresh.print (requests r.displayed) =
      sheet (["dry: " ++ toString job.settings.dryRun ++ ", mpath: " ++
          Path.display job.settings.mpath, "Purging " ++ job.device] ++
        ((m.candidates.zip r.calls).flatMap fun turn =>
          callLines job.settings job.device turn.1.1 turn.2) ++
        ((if m.candidates.length = 0 then [] else updatingLines job.settings .onCompletion) ++
          [finalLine ("Purged " ++ job.device) m.candidates.length m.candidates.length])) := by
  rcases h.course with ⟨hall, hlen, hres⟩ | ⟨failure, hlast, -⟩
  case inr =>
    have hm : Except.error failure ∈ r.calls.map Call.answer := by simp [hlast]
    obtain ⟨call, hc, ha⟩ := List.mem_map.mp hm
    obtain ⟨output, ho⟩ := answers call hc
    cases ha.symm.trans ho
  have hcount : r.calls.length = m.candidates.length := by
    rw [← hlen, ← List.length_map (f := Call.answer), hall, List.length_map]
  have hrow : (m.candidates.zip r.calls).length = m.candidates.length := by
    rw [List.length_zip, hcount, Nat.min_self]
  have hall : ∀ turn ∈ m.candidates.zip r.calls, ∃ output, turn.2.answer = .ok output :=
    fun turn hm => answers turn.2 (List.of_mem_zip hm).2
  have hturns := prints_turns 0 m.candidates.length (command_of_turn h.commands) hall (by omega)
  rw [hrow, Nat.zero_add] at hturns
  refine ⟨hcount, ?_⟩
  rw [h.displayed, turns_eq, hres, requests_append, requests_append]
  exact (((prints_opening first).append hturns).append (prints_ending _)).printed

/-- A call without an answer is the last one, and all before it are answered. -/
theorem Told.stops_at (h : Told job m backup r) {k : Nat} {call : Call} {failure : Failure}
    (hk : r.calls[k]? = some call) (ha : call.answer = .error failure) :
    ∃ front, r.calls = front ++ [call] ∧ front.length = k ∧
      (∀ call ∈ front, ∃ output, call.answer = .ok output) ∧ r.result = .error failure := by
  have hk' : (r.calls.map Call.answer)[k]? = some (.error failure) := by
    rw [List.getElem?_map, hk, Option.map_some, ha]
  rcases h.course with ⟨hall, -, -⟩ | ⟨other, hlast, hres⟩
  case inl =>
    have hm : Except.error failure ∈ r.calls.map Call.answer := List.mem_of_getElem? hk'
    simp [hall] at hm
  obtain ⟨front, last, hcalls, hfront, hl⟩ := List.map_eq_append_iff.mp hlast
  obtain ⟨final, rfl, hfinal⟩ := List.map_eq_singleton_iff.mp hl
  have answered : ∀ call ∈ front, ∃ output, call.answer = .ok output := by
    intro call hm
    have hin : call.answer ∈ r.answers.map Except.ok := hfront ▸ List.mem_map_of_mem hm
    obtain ⟨output, -, ho⟩ := List.mem_map.mp hin
    exact ⟨output, ho.symm⟩
  -- The call is not among those in front, and there is one more only.
  have hm : call ∈ r.calls := List.mem_of_getElem? hk
  rw [hcalls] at hk hm
  have hfinal' : call = final := by
    rcases List.mem_append.mp hm with hm | hm
    · obtain ⟨output, ho⟩ := answered call hm
      cases ha.symm.trans ho
    · exact List.mem_singleton.mp hm
  subst hfinal'
  cases ha.symm.trans hfinal
  refine ⟨front, hcalls, ?_, answered, hres⟩
  rcases Nat.lt_trichotomy front.length k with hlt | heq | hgt
  · rw [List.getElem?_eq_none (by simp; omega)] at hk
    cases hk
  · exact heq
  · rw [List.getElem?_append_left hgt] at hk
    obtain ⟨output, ho⟩ := answered call (List.mem_of_getElem? hk)
    cases ha.symm.trans ho

/-- A run whose last call has no answer prints how far it came. -/
theorem Told.prints_aborted (h : Told job m backup r) (first : job.bar = 1)
    (small : m.candidates.length ≤ largestCount) {front : List Call} {call : Call}
    {failure : Failure} (hcalls : r.calls = front ++ [call]) (ha : call.answer = .error failure)
    (hres : r.result = .error failure)
    (answered : ∀ call ∈ front, ∃ output, call.answer = .ok output) :
    LineDisplay.fresh.print (requests r.displayed) =
      sheet (["dry: " ++ toString job.settings.dryRun ++ ", mpath: " ++
          Path.display job.settings.mpath, "Purging " ++ job.device] ++
        (((m.candidates.zip r.calls).flatMap fun turn =>
          callLines job.settings job.device turn.1.1 turn.2) ++
        [finalLine "Aborted" front.length m.candidates.length])) := by
  have hlen := h.length_le
  have hcommands := command_of_turn h.commands
  -- The turns are those of the calls in front, and one more.
  obtain ⟨rows, more, hrow, hrows, hmore⟩ :=
    List.map_eq_append_iff.mp ((List.map_snd_zip hlen).trans hcalls)
  obtain ⟨turn, rfl, rfl⟩ := List.map_eq_singleton_iff.mp hmore
  have hcount : rows.length = front.length := by rw [← hrows, List.length_map]
  rw [hcalls, List.length_append, List.length_singleton] at hlen
  rw [hrow] at hcommands
  obtain ⟨hbefore, hturn⟩ := List.forall_mem_append.mp hcommands
  have hall : ∀ turn ∈ rows, ∃ output, turn.2.answer = .ok output :=
    fun turn hm => answered turn.2 (hrows ▸ List.mem_map_of_mem hm)
  have hturns := prints_turns 0 m.candidates.length hbefore hall (by omega)
  rw [Nat.zero_add, hcount] at hturns
  rw [h.displayed, turns_eq, hres, Job.ending, List.append_nil, requests_append, hrow,
    List.flatMap_append, List.flatMap_append, requests_append, List.flatMap_singleton,
    List.flatMap_singleton, List.append_assoc (List.flatMap _ _)]
  exact ((prints_opening first).append (hturns.append
    (prints_turn_unanswered (hturn turn (List.mem_singleton_self _)) ha))).printed

end

section
variable {settings : Settings} {utility : Utility} {bar : Nat} {draws : Draws} {v w : Volume}
  {m : Metadata} {backup : Bytes}

/-- **The lines of a whole run**, on a line display that has shown nothing before. There are no more
candidates than a count can show. -/
theorem run_prints (valid : settings.validate = .ok ())
    (load : Metadata.load v settings.mpath = .ok m)
    (taken : Backup.take v settings.mpath = .ok (backup, w))
    (granted : ∀ deed ∈ (run settings utility bar draws v).deeds, deed.isGranted = true)
    (handed : ∀ title total current,
      (LineDisplay.fresh.handle (.start title total current)).2.id = some bar)
    (small : m.candidates.length ≤ largestCount) :
    Printout settings m (run settings utility bar draws v)
      (LineDisplay.fresh.print (requests (run settings utility bar draws v).displayed)) := by
  have first : bar = 1 := (Option.some.inj (handed "" 0 0)).symm
  have hcommands : ∀ told : Told (jobFor settings utility bar draws m) m backup
      (run settings utility bar draws v),
      (run settings utility bar draws v).calls.map Call.command =
        (commandsFor settings m).take (run settings utility bar draws v).calls.length := by
    intro told
    rw [told.commands, commandsFor, Metadata.candidateBlocks, List.map_map, List.map_take]
    rfl
  constructor
  case completed =>
    intro real answers
    have told := run_told real load valid taken granted
    obtain ⟨hlen, hprinted⟩ := told.prints_completed first small answers
    refine ⟨?_, ?_⟩
    · rw [hcommands told, hlen, List.take_of_length_le]
      simp [commandsFor, Metadata.candidateBlocks]
    · rw [turnLines_eq, List.append_assoc _ (ite _ _ _)]
      exact hprinted
  case aborted =>
    intro real k call failure hk ha
    have told := run_told real load valid taken granted
    obtain ⟨front, hcalls, rfl, answered, hres⟩ := told.stops_at hk ha
    refine ⟨?_, by rw [hcalls, List.take_left]; exact answered, ?_⟩
    · rw [hcommands told, hcalls, List.length_append, List.length_singleton]
    · rw [turnLines_eq, List.append_assoc]
      exact told.prints_aborted first small hcalls ha hres answered
  case rehearsed =>
    intro dry
    obtain ⟨before, logged, he⟩ := run_dry dry load valid taken utility bar draws
    have hsmall : 0 + m.candidates.length ≤ largestCount := by omega
    have hrows :=
      prints_rehearsal (jobFor settings utility bar draws m) 0 m.candidates.length hsmall
    rw [Nat.zero_add] at hrows
    rw [he]
    refine ⟨(logged.quiet.append (quiet_dry _ m bar _)).calls, ?_⟩
    rw [Run.displayed, displayed_append, logged.displayed, List.nil_append, displayed_events,
      shownOf_append, shownOf_append, requests_append, requests_append]
    have hall := ((prints_opening first).append hrows).append
      (LineDisplay.prints_finish bar m.candidates.length m.candidates.length
        ("Purged " ++ (settings.deviceStart ++ m.device)))
    rw [commandsFor, Metadata.candidateBlocks, List.map_map, List.zip_map', List.flatMap_map]
    exact hall.printed

end

/-- The printout of a run on the small file that stops at its second candidate. -/
theorem run_prints_small :
    Printout (smallSettings .perBlock) smallMetadata
      (run (smallSettings .perBlock) smallBrokenUtility 1 smallDraws smallVolume)
      (LineDisplay.fresh.print (requests
        (run (smallSettings .perBlock) smallBrokenUtility 1 smallDraws smallVolume).displayed)) ∧
    LineDisplay.fresh.print (requests
        (run (smallSettings .perBlock) smallBrokenUtility 1 smallDraws smallVolume).displayed) =
      sheet ["dry: false, mpath: /d/m", "Purging /dev/nvme0",
        "Erasing: \x7b blk: 0000, dev: /dev/nvme0 \x7d",
        "nvm_vblk line_erase /dev/nvme0 0 15 0 7 0", "Result: \x7b rcode: 0, out: '', err: '' \x7d",
        "Updating meta file", "Erasing: \x7b blk: 0002, dev: /dev/nvme0 \x7d",
        "nvm_vblk line_erase /dev/nvme0 0 15 0 7 2", "Aborted (1/2)"] := by
  refine ⟨?_, by decide +kernel⟩
  have taken : (Backup.take smallVolume (smallSettings .perBlock).mpath).toBool = true := by
    decide +kernel
  obtain ⟨taken, hb⟩ := toBool_eq_true_iff.mp taken
  have load : Metadata.load smallVolume (smallSettings .perBlock).mpath = .ok smallMetadata :=
    small_stored.load
  exact run_prints rfl load hb (by decide +kernel) (fun _ _ _ => rfl) (by decide)

end BlockPurge.Purge
