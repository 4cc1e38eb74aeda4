import BlockPurge.Proofs.Metadata.Format
import BlockPurge.Proofs.Progress.Printing
import BlockPurge.Proofs.Purge.Endings
import BlockPurge.Proofs.Purge.Turns

/-!
# A line for each event

What a run shows is made of its settings, of the device that the metadata file names, of numbers,
and of what the utility prints. If the settings hold no newline then nothing that is shown holds
one: the device is read from one line, and the summary of an output is one line whatever was
printed. So a utility cannot add lines of its own to the report, and a printout has one line for
each event that prints one.
-/
namespace BlockPurge

namespace Text

/-- A text that is one line, without the end of it. -/
def Unbroken (s : String) : Prop :=
  '\n' ∉ s.toList

instance : DecidablePred Unbroken :=
  fun s => inferInstanceAs (Decidable ('\n' ∉ s.toList))

theorem unbroken_append {s t : String} : Unbroken (s ++ t) ↔ Unbroken s ∧ Unbroken t := by
  simp [Unbroken, not_or]

theorem Unbroken.append {s t : String} (hs : Unbroken s) (ht : Unbroken t) : Unbroken (s ++ t) :=
  unbroken_append.mpr ⟨hs, ht⟩

theorem unbroken_nat (n : Nat) : Unbroken (toString n) := by
  intro hn
  have hdigits : '\n' ∈ Nat.toDigits 10 n := by
    simpa [Nat.toString_eq_repr, Nat.repr] using hn
  exact absurd (Nat.isDigit_of_mem_toDigits (by decide) (by decide) hdigits) (by decide)

theorem unbroken_int (i : Int) : Unbroken (toString i) := by
  cases i with
  | ofNat n => exact unbroken_nat n
  | negSucc n => exact Unbroken.append (s := "-") (by decide) (unbroken_nat (n + 1))

theorem unbroken_bool (b : Bool) : Unbroken (toString b) := by
  cases b with
  | false => decide
  | true => decide

theorem unbroken_intercalate {separator : String} (hs : Unbroken separator) {items : List String}
    (h : ∀ item ∈ items, Unbroken item) : Unbroken (separator.intercalate items) := by
  induction items with
  | nil => exact (by decide : Unbroken "")
  | cons item rest ih =>
    obtain ⟨hitem, hrest⟩ := List.forall_mem_cons.mp h
    cases rest with
    | nil => exact hitem
    | cons next rest =>
      rw [String.intercalate_cons_cons]
      exact (hitem.append hs).append (ih hrest)

theorem Unbroken.cut {s : String} (h : Unbroken s) (limit : Option Nat) :
    Unbroken (cut limit s) := by
  cases limit with
  | none => exact h
  | some n =>
    intro hn
    rw [Text.cut, String.toList_ofList] at hn
    exact h (List.mem_of_mem_take hn)

/-- Lines that are shown as one are one line. -/
theorem unbroken_oneLine {items : List String} (h : ∀ item ∈ items, Unbroken item)
    (limit : Option Nat) : Unbroken (oneLine items limit) :=
  (unbroken_intercalate (by decide) h).cut limit

theorem unbroken_of_mem_lines {s line : List Char} (h : line ∈ lines s) :
    Unbroken (String.ofList line) := by
  rw [Unbroken, String.toList_ofList]
  exact notMem_of_mem_lines h

end Text

open Text

/-- **The summary of an output is one line**, whatever the utility printed. -/
theorem Output.unbroken_summary (o : Output) : Unbroken o.summary := by
  have hexit : Unbroken o.exitText := by
    unfold Output.exitText
    split
    · exact unbroken_int _
    · decide
  have helapsed : ∀ line ∈ o.elapsedLines, Unbroken line := by
    intro line hm
    obtain ⟨piece, hp, rfl⟩ := List.mem_map.mp hm
    exact unbroken_of_mem_lines (List.mem_filter.mp hp).1
  have herrors : ∀ line ∈ Text.linesOf o.stderr, Unbroken line := by
    intro line hm
    obtain ⟨piece, hp, rfl⟩ := List.mem_map.mp hm
    exact unbroken_of_mem_lines hp
  have hline : Unbroken ("rcode: " ++ o.exitText ++ ", out: '" ++
      Text.oneLine o.elapsedLines none ++ "', err: '" ++
      Text.oneLine (Text.linesOf o.stderr) (some Output.shownErrors) ++ "'") := by
    simp only [unbroken_append]
    exact ⟨⟨⟨⟨⟨⟨by decide, hexit⟩, by decide⟩, unbroken_oneLine helapsed none⟩, by decide⟩,
      unbroken_oneLine herrors _⟩, by decide⟩
  exact hline

/-! ## Events -/

namespace Progress

/-- The texts that an event hands to the display. -/
def Event.texts : Event → List String
  | .start _ title _ _ => [title]
  | .message _ text => [text]
  | .advance _ _ => []
  | .finish _ text => [text]
  | .line text => [text]

/-- An event without newlines in its texts. -/
def Event.Unbroken (event : Event) : Prop :=
  ∀ text ∈ event.texts, Text.Unbroken text

/-- Whether a line display prints a line for an event. -/
def Event.printsLine : Event → Bool
  | .start .. => true
  | .message .. => false
  | .advance .. => false
  | .finish .. => true
  | .line _ => true

/-- A line display prints as many lines for an event as it should, each of them whole. -/
theorem LineDisplay.printed_handle (d : LineDisplay) {event : Event} (h : event.Unbroken) :
    ∃ lines, (d.handle event.request).2.printed = sheet lines ∧
      lines.length = [event].countP Event.printsLine ∧ ∀ line ∈ lines, Text.Unbroken line := by
  have hcount : ∀ t : Tally, Text.Unbroken t.text := by
    intro t
    simp only [Tally.text, unbroken_append]
    exact ⟨⟨⟨⟨by decide, unbroken_nat _⟩, by decide⟩, unbroken_nat _⟩, by decide⟩
  have hone (text : String) (ht : Text.Unbroken text) :
      ∃ lines, text ++ "\n" = sheet lines ∧ lines.length = 1 ∧
        ∀ line ∈ lines, Text.Unbroken line :=
    ⟨[text], (sheet_singleton text).symm, rfl, by simpa using ht⟩
  have hnone : ∃ lines, "" = sheet lines ∧ lines.length = 0 ∧
      ∀ line ∈ lines, Text.Unbroken line :=
    ⟨[], rfl, rfl, by simp⟩
  cases event with
  | start _ title total current => exact hone title (h title (by simp [Event.texts]))
  | message id text => exact hnone
  | advance id delta => exact hnone
  | finish id text =>
    have htext := h text (by simp [Event.texts])
    refine hone _ (htext.append ?_)
    split
    · exact hcount _
    · decide
  | line text => exact hone text (h text (by simp [Event.texts]))

theorem LineDisplay.printed_events (d : LineDisplay) {events : List Event}
    (h : ∀ event ∈ events, event.Unbroken) :
    ∃ lines, d.print (events.map Event.request) = sheet lines ∧
      lines.length = events.countP Event.printsLine ∧ ∀ line ∈ lines, Text.Unbroken line := by
  induction events generalizing d with
  | nil => exact ⟨[], rfl, rfl, by simp⟩
  | cons event rest ih =>
    obtain ⟨hevent, hrest⟩ := List.forall_mem_cons.mp h
    obtain ⟨first, hprint, hlength, hfirst⟩ := d.printed_handle hevent
    obtain ⟨more, hprints, hlengths, hmore⟩ := ih (d.handle event.request).1 hrest
    refine ⟨first ++ more, ?_, ?_, List.forall_mem_append.mpr ⟨hfirst, hmore⟩⟩
    · rw [List.map_cons, LineDisplay.print, hprint, hprints, sheet_append]
    · rw [List.length_append, hlength, hlengths, ← List.countP_append]
      rfl

end Progress

namespace Purge

/-! ## Deeds -/

/-- Deeds that show no newline. -/
def Unforged (deeds : List Deed) : Prop :=
  ∀ event ∈ displayed deeds, event.Unbroken

/-- The texts that go into all that is shown of the blocks of a run hold no newline. -/
structure Job.Unbroken (job : Job) : Prop where
  mpath : Text.Unbroken (Path.display job.settings.mpath)
  program : Text.Unbroken job.settings.program
  device : Text.Unbroken job.device

theorem unforged_of_displayed {deeds : List Deed} (h : displayed deeds = []) : Unforged deeds := by
  simp [Unforged, h]

theorem Unforged.append {deeds more : List Deed} (h : Unforged deeds) (k : Unforged more) :
    Unforged (deeds ++ more) := by
  rw [Unforged, displayed_append]
  exact List.forall_mem_append.mpr ⟨h, k⟩

/-- An event that hands one text to the display. -/
theorem unforged_text {event : Progress.Event} {text : String} (he : event.texts = [text])
    (h : Text.Unbroken text) : Unforged [.event (.progress event)] := by
  have hevent : event.Unbroken := by
    rw [Progress.Event.Unbroken, he]
    exact List.forall_mem_singleton.mpr h
  exact List.forall_mem_singleton.mpr hevent

theorem unbroken_fourDigits (n : Nat) : Text.Unbroken (fourDigits n) := by
  have hzeros (k : Nat) : Text.Unbroken ("".pushn '0' k) := by
    induction k with
    | zero => decide
    | succ k ih =>
      have hpush : "".pushn '0' (k + 1) = ("".pushn '0' k).push '0' := rfl
      simpa [hpush, Text.Unbroken] using ih
  exact (hzeros _).append (unbroken_nat n)

section
variable {job : Job} {m : Metadata}

theorem Job.Unbroken.command_line (h : job.Unbroken) (index : Nat) :
    Text.Unbroken (job.command index).line := by
  have hwords : (job.command index).words =
      [job.settings.program, "line_erase", job.device] ++ Erase.span ++ [toString index] := rfl
  have hfront : ∀ word ∈ [job.settings.program, "line_erase", job.device], Text.Unbroken word :=
    List.forall_mem_cons.mpr ⟨h.program, List.forall_mem_cons.mpr
      ⟨by decide, List.forall_mem_singleton.mpr h.device⟩⟩
  have hspan : ∀ word ∈ Erase.span, Text.Unbroken word := by decide
  rw [Command.line, hwords]
  apply unbroken_intercalate (by decide)
  exact List.forall_mem_append.mpr ⟨List.forall_mem_append.mpr ⟨hfront, hspan⟩,
    List.forall_mem_singleton.mpr (unbroken_nat index)⟩

/-- What is shown before a block is called for. -/
theorem Job.Unbroken.announce (h : job.Unbroken) (index : Nat) :
    Unforged ((job.announce index).map .event) := by
  have hblock := unbroken_fourDigits index
  have hmessage : Text.Unbroken ("Erasing block " ++ fourDigits index ++ " on " ++ job.device) := by
    simp only [unbroken_append]
    exact ⟨⟨⟨by decide, hblock⟩, by decide⟩, h.device⟩
  have hline : Text.Unbroken
      ("Erasing: \x7b blk: " ++ fourDigits index ++ ", dev: " ++ job.device ++ " \x7d") := by
    simp only [unbroken_append]
    exact ⟨⟨⟨⟨by decide, hblock⟩, by decide⟩, h.device⟩, by decide⟩
  exact ((unforged_text rfl hmessage).append (unforged_text rfl hline)).append
    (unforged_text rfl (h.command_line index))

/-- What is shown of an answer, whatever the utility printed. -/
theorem unforged_conclude (job : Job) (output : Output) :
    Unforged ((job.conclude output).map .event) := by
  have hline : Text.Unbroken ("Result: \x7b " ++ output.summary ++ " \x7d") := by
    simp only [unbroken_append]
    exact ⟨⟨by decide, output.unbroken_summary⟩, by decide⟩
  have hadvance : Unforged [.event (.progress (.advance job.bar 1))] := by
    simp [Unforged, displayed, Deed.event?, Event.progress?, Progress.Event.Unbroken,
      Progress.Event.texts]
  exact (unforged_text rfl hline).append hadvance

theorem Job.Unbroken.erasing (h : job.Unbroken) (v : Volume) (index : Nat)
    (answer : Except Failure Output) : Unforged (job.erasing v index answer) := by
  have hcalled : Unforged ([Event.log .debug (Erase.note (job.command index)),
      .call (job.command index) v answer].map .event) := unforged_of_displayed rfl
  unfold Job.erasing
  cases answer with
  | error failure =>
    have habort : Unforged ((job.abort index failure).map .event) :=
      (unforged_of_displayed rfl : Unforged [.event (.log .error _)]).append
        (unforged_text rfl (by decide))
    simpa using ((h.announce index).append hcalled).append habort
  | ok output =>
    have hjudged : Unforged ([(Job.judge index output).2.2].map .event) := by
      apply unforged_of_displayed
      unfold Job.judge
      split
      · rfl
      · rfl
    simpa using (((h.announce index).append hcalled).append
      (unforged_conclude job output)).append hjudged

theorem unforged_persistAt {occasion : Occasion} {v stored : Volume} {writing : List Deed}
    {verdict : Except Failure Unit} (h : job.persistAt occasion m v = (writing, verdict, stored)) :
    Unforged writing := by
  have hupdating : Unforged [.event updating] := unforged_text rfl (by decide)
  unfold Job.persistAt at h
  split at h
  · rcases persist_cases job occasion m v with ⟨-, hp⟩ | ⟨fault, -, hp⟩
    · cases hp.symm.trans h
      exact hupdating
    · cases hp.symm.trans h
      exact hupdating
  · cases h
    exact unforged_of_displayed rfl

/-! ## The loop and the run -/

theorem Erases.unforged {left : List (Nat × BlockState)} {v : Volume} {stretch : Stretch}
    (h : Erases job left m v stretch) (unbroken : job.Unbroken) : Unforged stretch.deeds := by
  induction h with
  | done => exact unforged_of_displayed rfl
  | @unanswered candidate _ _ v _ failure _ => exact unbroken.erasing v candidate.1 (.error failure)
  | unrecorded _ hw => exact (unbroken.erasing _ _ _).append (unforged_persistAt hw)
  | recorded _ hw _ ih =>
    exact ((unbroken.erasing _ _ _).append (unforged_persistAt hw)).append ih

theorem Job.Unbroken.rehearsal (h : job.Unbroken) (candidates : List (Nat × BlockState)) :
    Unforged ((job.rehearsal candidates).map .event) := by
  induction candidates with
  | nil => exact unforged_of_displayed rfl
  | cons candidate rest ih =>
    have hnote : Unforged
        ([Event.log .debug (Erase.note (job.command candidate.1))].map .event) :=
      unforged_of_displayed rfl
    have hturn := ((h.announce candidate.1).append hnote).append (unforged_conclude job .silent)
    simpa [rehearsal_cons, Job.rehearsing] using hturn.append ih

/-- The loop and the write that closes it. -/
theorem Job.Unbroken.eraseAll (h : job.Unbroken) (m : Metadata) (v : Volume) :
    Unforged (eraseAll job m.candidates m v).deeds := by
  have hloop : Unforged (eraseEach job m.candidates m v).deeds := by
    cases hd : job.settings.dryRun with
    | true =>
      rw [eraseEach_dry hd]
      exact h.rehearsal m.candidates
    | false => exact (erases hd m.candidates m v fun _ => mem_candidates_lt).unforged h
  unfold Purge.eraseAll
  generalize eraseEach job m.candidates m v = stretch at hloop
  obtain ⟨deeds, now, w, failure | reports⟩ := stretch
  · exact hloop
  dsimp only
  split
  · exact hloop
  rcases hw : job.persistAt .completion now w with ⟨writing, failure | done, stored⟩
  · exact hloop.append (unforged_persistAt hw)
  · exact hloop.append (unforged_persistAt hw)

theorem Job.Unbroken.opening (h : job.Unbroken) (m : Metadata) :
    Unforged ((opening job m m.candidates).map .event) := by
  have hline : Text.Unbroken ("dry: " ++ toString job.settings.dryRun ++ ", mpath: " ++
      Path.display job.settings.mpath) := by
    simp only [unbroken_append]
    exact ⟨⟨⟨by decide, unbroken_bool _⟩, by decide⟩, h.mpath⟩
  have hcount (text : String) : Unforged [.event (.log .info text)] := unforged_of_displayed rfl
  have htitle : Text.Unbroken ("Purging " ++ job.device) :=
    unbroken_append.mpr ⟨by decide, h.device⟩
  exact ((unforged_text rfl hline).append (hcount _)).append (unforged_text rfl htitle)

theorem Job.Unbroken.purge (h : job.Unbroken) (m : Metadata) (backup : Bytes) (v : Volume) :
    Unforged (purge job m backup v).deeds := by
  have hmain := (h.opening m).append (h.eraseAll m v)
  unfold Purge.purge
  dsimp only
  split
  · exact hmain
  · exact hmain.append (unforged_text rfl (unbroken_append.mpr ⟨by decide, h.device⟩))

end

/-- The device of a metadata file is one line of it. -/
theorem unbroken_device {v : Volume} {path : Bytes} {m : Metadata}
    (h : Metadata.load v path = .ok m) : Text.Unbroken m.device := by
  obtain ⟨content, hstored⟩ := Metadata.stored_of_load h
  exact ((Metadata.sound_of_parse hstored.parsed).rows m.device (by simp [Metadata.lines])).oneLine

/-- What a run shows, line by line. -/
structure ShowsLines (r : Run) : Prop where
  /-- No text that is handed to the display holds a newline. -/
  texts : ∀ event ∈ r.displayed, ∀ text ∈ event.texts, '\n' ∉ text.toList
  /-- A line display prints one line for each event that prints one, whatever it showed before. -/
  printed : ∀ d : Progress.LineDisplay, ∃ lines,
    d.print (r.displayed.map Progress.Event.request) = Progress.sheet lines ∧
    lines.length = r.displayed.countP Progress.Event.printsLine ∧
    ∀ line ∈ lines, '\n' ∉ line.toList

theorem Unforged.showsLines {r : Run} (h : Unforged r.deeds) : ShowsLines r where
  texts := h
  printed d := d.printed_events h

/-- **A utility cannot forge lines.** If the settings hold no newline, a run shows line by line, and
the summary of every output is one line. -/
theorem run_unforged {settings : Settings} (mpath : '\n' ∉ (Path.display settings.mpath).toList)
    (program : '\n' ∉ settings.program.toList) (start : '\n' ∉ settings.deviceStart.toList)
    (utility : Utility) (bar : Nat) (draws : Draws) (v : Volume) :
    ShowsLines (run settings utility bar draws v) ∧
      ∀ output : Output, '\n' ∉ output.summary.toList := by
  refine ⟨Unforged.showsLines ?_, Output.unbroken_summary⟩
  cases hs : settings.validate with
  | error failure =>
    rw [run_unfit utility bar draws v hs]
    exact unforged_of_displayed rfl
  | ok done =>
    cases hl : Metadata.load v settings.mpath with
    | error failure =>
      rw [run_unread utility bar draws hs hl]
      exact unforged_of_displayed rfl
    | ok m =>
      rcases run_eq settings utility bar draws hl with
          ⟨before, failure, hb, he, -⟩ | ⟨before, backup, w, hb, -, -, he⟩
      · rw [he]
        exact unforged_of_displayed hb.displayed
      · have hjob : (jobFor settings utility bar draws m).Unbroken :=
          ⟨mpath, program, Unbroken.append start (unbroken_device hl)⟩
        rw [he]
        exact (unforged_of_displayed hb.displayed).append (hjob.purge m backup w)

/-- An output with what looks like the last line of a report on both of its streams. -/
def smallForgery : Output :=
  ⟨some 1, "Purged\n", "no such block\nPurged /dev/nvme0 (2/2)"⟩

/-- What it has on standard error stands in the middle of one line, the rest is not shown, and a run
with such outputs shows line by line. -/
theorem run_unforged_small :
    smallForgery.summary =
      "rcode: 1, out: '', err: 'no such block | Purged /dev/nvme0 (2/2)'" ∧
    '\n' ∉ smallForgery.summary.toList ∧
    ShowsLines (run (smallSettings .perBlock) (fun v _ => (.ok smallForgery, v)) 1 smallDraws
      smallVolume) := by
  have mpath : '\n' ∉ (Path.display (smallSettings .perBlock).mpath).toList := by decide
  have lines := run_unforged mpath (by decide) (by decide) (fun v _ => (.ok smallForgery, v)) 1
    smallDraws smallVolume
  exact ⟨by decide +kernel, lines.2 smallForgery, lines.1⟩

end Purge

end BlockPurge
