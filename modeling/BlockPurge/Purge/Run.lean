import BlockPurge.Backup
import BlockPurge.Metadata.Store
import BlockPurge.Progress.Event
import BlockPurge.Purge.Report
import BlockPurge.Purge.Settings

/-!
# The purge run

A run loads the metadata file, takes a backup of it, and erases every candidate in block order. The
outcome of each erase is recorded in the metadata, which is written back after every block or once
at the end. A failed erase is an outcome and the run goes on; a call without an answer or a refused
write ends the run at once. A run is a function of its settings, of the utility, of what is drawn
for the names of its temporary files, and of the volume: it gives back everything that was done, in
order, the volume afterwards, and a report or a failure.

From the backup on, a run changes the volume in two ways only: the utility may do so when it is
called, and the metadata file is replaced. Both stand among its deeds with the volume that they
start from, so that the volume at any moment of a run can be spoken of.
-/
namespace BlockPurge.Purge

inductive Level where
  | error
  | warn
  | info
  | debug
  deriving DecidableEq, Repr

inductive Event where
  | progress (event : Progress.Event)
  /-- The utility is called, on a volume, and answers. -/
  | call (command : Command) (before : Volume) (answer : Except Failure Output)
  | log (level : Level) (text : String)

inductive Deed where
  /-- Something happens that can be seen from outside. -/
  | event (e : Event)
  /-- The metadata file is replaced on a volume, or would be but for the verdict of the plan. -/
  | replace (before : Volume) (plan : Volume.Plan)

def Deed.event? : Deed → Option Event
  | .event e => some e
  | .replace .. => none

/-- A run: what was done, the volume afterwards, and the report or why there is none. -/
structure Run where
  deeds : List Deed
  volume : Volume
  result : Except Failure Report

def Run.events (r : Run) : List Event :=
  r.deeds.filterMap Deed.event?

/-- When the metadata is written back: after a block, or at the end. -/
inductive Occasion where
  | block (index : Nat)
  | completion
  deriving DecidableEq, Repr

/-- The policy that has the metadata written back on an occasion. -/
def Occasion.policy : Occasion → Persistence
  | .block _ => .perBlock
  | .completion => .onCompletion

/-- What is drawn for the temporary file of each write. -/
abbrev Draws := Occasion → Volume.Draw

/-- What stays the same while the candidates of a run are erased. -/
structure Job where
  settings : Settings
  device : String
  utility : Utility
  bar : Nat
  draws : Draws

def fourDigits (n : Nat) : String :=
  let digits := toString n
  "".pushn '0' (4 - digits.length) ++ digits

def say (text : String) : Event :=
  .progress (.line text)

def updating : Event :=
  say "Updating meta file"

namespace Job

def command (job : Job) (index : Nat) : Command :=
  Erase.command job.settings.program job.device index

def announce (job : Job) (index : Nat) : List Event :=
  [.progress (.message job.bar ("Erasing block " ++ fourDigits index ++ " on " ++ job.device)),
   say ("Erasing: \x7b blk: " ++ fourDigits index ++ ", dev: " ++ job.device ++ " \x7d"),
   say (job.command index).line]

/-- What happens when the command for a block is run, and the answer to it. -/
def attempt (job : Job) (v : Volume) (index : Nat) : List Event × Except Failure Output × Volume :=
  let command := job.command index
  let (answer, after) := Erase.attempt job.settings.dryRun job.utility v command
  let calls := if job.settings.dryRun then [] else [Event.call command v answer]
  (.log .debug (Erase.note command) :: calls, answer, after)

def abort (job : Job) (index : Nat) (failure : Failure) : List Event :=
  [.log .error ("erase of block " ++ toString index ++ " on " ++ job.device ++ " aborted: " ++
     failure.message),
   .progress (.finish job.bar "Aborted")]

def conclude (job : Job) (output : Output) : List Event :=
  [say ("Result: \x7b " ++ output.summary ++ " \x7d"), .progress (.advance job.bar 1)]

/-- The state and the outcome that an answer gives a block, and what is logged about it. -/
def judge (index : Nat) (output : Output) : BlockState × Outcome × Event :=
  if output.succeeded then
    (.erased, .erased, .log .info ("block " ++ toString index ++ " erased"))
  else
    (.failed, .failed,
      .log .warn ("block " ++ toString index ++ " erase failed: " ++ output.summary))

/-- How the metadata file is replaced when the metadata is written back. -/
def rewriting (job : Job) (occasion : Occasion) (m : Metadata) (v : Volume) : Volume.Plan :=
  m.replacement v (job.draws occasion) job.settings.mpath

/-- Writes the metadata back: what is done, whether it worked, and the volume afterwards. -/
def persist (job : Job) (occasion : Occasion) (m : Metadata) (v : Volume) :
    List Deed × Except Failure Unit × Volume :=
  let tried := [.event updating, .replace v (job.rewriting occasion m v)]
  match m.persist v (job.draws occasion) job.settings.mpath with
  | (.ok (), after) =>
    let note := Metadata.persistedNote (v.replacedPath job.settings.mpath) m
    (tried ++ [.event (.log .debug note)], .ok (), after)
  | (.error failure, after) => (tried, .error failure, after)

/-- Writes the metadata back if the policy of the run is to do so on the occasion. -/
def persistAt (job : Job) (occasion : Occasion) (m : Metadata) (v : Volume) :
    List Deed × Except Failure Unit × Volume :=
  if job.settings.persistence = occasion.policy then job.persist occasion m v else ([], .ok (), v)

end Job

structure Stretch where
  deeds : List Deed
  metadata : Metadata
  volume : Volume
  result : Except Failure (List BlockReport)

/-- The stretch with deeds before it, and with a block report in front of its own. -/
def Stretch.after (deeds : List Deed) (report : BlockReport) (s : Stretch) : Stretch :=
  { s with
    deeds := deeds ++ s.deeds
    result := s.result.map (report :: ·) }

/-- Erases candidates in order until one has no answer or a write is refused. -/
def eraseEach (job : Job) : List (Nat × BlockState) → Metadata → Volume → Stretch
  | [], m, v => ⟨[], m, v, .ok []⟩
  | (index, previous) :: rest, m, v =>
    let (called, answer, answered) := job.attempt v index
    let opening := job.announce index ++ called
    match answer with
    | .error failure =>
      ⟨(opening ++ job.abort index failure).map .event, m, answered, .error failure⟩
    | .ok output =>
      let shown := opening ++ job.conclude output
      if job.settings.dryRun then
        (eraseEach job rest m answered).after (shown.map .event)
          ⟨index, previous, .dryRun, output.exit, output.summary⟩
      else
        let (state, outcome, note) := Job.judge index output
        let judged := (shown ++ [note]).map Deed.event
        match m.setState index state with
        | .error failure => ⟨judged, m, answered, .error failure⟩
        | .ok marked =>
          let (writing, written, stored) := job.persistAt (.block index) marked answered
          match written with
          | .error failure => ⟨judged ++ writing, marked, stored, .error failure⟩
          | .ok () =>
            (eraseEach job rest marked stored).after (judged ++ writing)
              ⟨index, previous, outcome, output.exit, output.summary⟩

/-- Erases the candidates, and writes the metadata back if that is left to the end and something was
erased. -/
def eraseAll (job : Job) (candidates : List (Nat × BlockState)) (m : Metadata) (v : Volume) :
    Stretch :=
  let stretch := eraseEach job candidates m v
  match stretch.result with
  | .error _ => stretch
  | .ok _ =>
    if job.settings.dryRun || candidates.isEmpty then stretch
    else
      let (writing, written, stored) := job.persistAt .completion stretch.metadata stretch.volume
      match written with
      | .error failure => ⟨stretch.deeds ++ writing, stretch.metadata, stored, .error failure⟩
      | .ok () => { stretch with deeds := stretch.deeds ++ writing, volume := stored }

def opening (job : Job) (m : Metadata) (candidates : List (Nat × BlockState)) : List Event :=
  [say ("dry: " ++ toString job.settings.dryRun ++ ", mpath: " ++
     Path.display job.settings.mpath),
   .log .info (toString candidates.length ++ " of " ++ toString m.size ++ " blocks on " ++
     job.device ++ " are erase candidates"),
   .progress (.start job.bar ("Purging " ++ job.device) candidates.length 0)]

def purge (job : Job) (m : Metadata) (backup : Bytes) (v : Volume) : Run :=
  let candidates := m.candidates
  let stretch := eraseAll job candidates m v
  let deeds := (opening job m candidates).map .event ++ stretch.deeds
  match stretch.result with
  | .error failure => ⟨deeds, stretch.volume, .error failure⟩
  | .ok blocks =>
    ⟨deeds ++ [.event (.progress (.finish job.bar ("Purged " ++ job.device)))], stretch.volume,
      .ok ⟨job.settings.mpath, job.device, backup, job.settings.dryRun, m.size, blocks⟩⟩

/-- A run with settings and a utility on a volume, whose indicator gets the number `bar`. -/
def run (settings : Settings) (utility : Utility) (bar : Nat) (draws : Draws) (v : Volume) : Run :=
  match settings.validate with
  | .error failure => ⟨[], v, .error failure⟩
  | .ok () =>
    match Metadata.load v settings.mpath with
    | .error failure => ⟨[], v, .error failure⟩
    | .ok m =>
      let loaded := Event.log .debug (Metadata.loadedNote settings.mpath m)
      match Backup.take v settings.mpath with
      | .error failure => ⟨[.event loaded], v, .error failure⟩
      | .ok (backup, backedUp) =>
        let job : Job := ⟨settings, m.devicePath settings.deviceStart, utility, bar, draws⟩
        let rest := purge job m backup backedUp
        let saved := Event.log .info (Backup.note settings.mpath backup)
        { rest with deeds := .event loaded :: .event saved :: rest.deeds }

end BlockPurge.Purge
