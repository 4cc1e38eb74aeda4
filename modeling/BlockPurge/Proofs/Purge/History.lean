import BlockPurge.Proofs.Purge.Outcome

/-!
# Histories of runs

Runs of any kind follow one another on a file that nobody else writes. Each run finds the file with
some outcomes recorded, and leaves it with the same ones and perhaps some more, each of them the
answer to a call for the next candidate. So over a whole history the file holds more and more of one
row of answers, and what one text records at the start is all that is needed to speak of the file at
any later time.
-/
namespace BlockPurge.Purge

/-- A run with all that it starts from. -/
structure Episode where
  settings : Settings
  utility : Utility
  bar : Nat
  draws : Draws
  start : Volume

/-- The run of an episode. -/
def Episode.run (e : Episode) : Run :=
  Purge.run e.settings e.utility e.bar e.draws e.start

/-- The volumes of an episode, from the one it starts on to the one it leaves. -/
def Episode.volumes (e : Episode) : List Volume :=
  e.start :: e.run.moments.map Prod.snd

/-- Runs on the file at a path that nobody else writes: each finds there what the one before it
left. -/
def Succession (path : Bytes) : Except Fault Bytes → List Episode → Prop
  | _, [] => True
  | found, e :: rest =>
    e.settings.mpath = path ∧ e.utility.Spares path ∧ e.start.Sound ∧ e.start.read path = found ∧
      Succession path (e.run.volume.read path) rest

/-- The file holds a text with some outcomes recorded. -/
def Holds (path : Bytes) (content : String) (m : Metadata) (held : List Output) (v : Volume) :
    Prop :=
  v.read path = .ok (Text.encode (m.textAfter content held))

/-- A dry run calls nothing and replaces nothing. -/
theorem quiet_of_dryRun {settings : Settings} (utility : Utility) (bar : Nat) (draws : Draws)
    {v : Volume} {content : String} {m : Metadata}
    (stored : Metadata.Stored v settings.mpath content m)
    (dry : settings.dryRun = true) :
    Quiet (run settings utility bar draws v).deeds ∧
      (run settings utility bar draws v).volume.read settings.mpath =
        .ok (Text.encode content) := by
  rcases run_eq settings utility bar draws stored.load with
      ⟨before, failure, hq, he, -⟩ | ⟨before, backup, w, hq, -, hb, he⟩
  · rw [he]
    exact ⟨hq.quiet, stored.read⟩
  have hdry : (jobFor settings utility bar draws m).settings.dryRun = true := dry
  obtain ⟨hpurge, hv⟩ := quiet_purge hdry m backup w
  rw [he]
  exact ⟨hq.quiet.append hpurge, by simpa only [hv] using (Backup.read_take hb).trans stored.read⟩

/-! ## One run -/

/-- What a run of any kind comes to on stored metadata. -/
structure Advances (path : Bytes) (dryRun : Bool) (content : String) (m : Metadata) (r : Run)
    (held : List Output) : Prop where
  rising : Rising (Holds path content m) [] (r.moments.map Prod.snd) held
  given : held <+: r.answers
  stored : Holds path content m held r.volume
  called : ∀ {k : Nat} {call : Call}, r.calls[k]? = some call →
    ∃ block, m.candidateBlocks[k]? = some block ∧ call.block? = some (toString block)
  answered : ∀ {k : Nat} {output : Output}, r.answers[k]? = some output →
    ∃ call, r.calls[k]? = some call ∧ call.answer = .ok output
  finished : dryRun = false → ∀ report, r.result = .ok report →
    held.length = m.candidateBlocks.length

theorem Rising.map {α β : Type} {holds : List Output → α → Prop} {holds' : List Output → β → Prop}
    {f : α → β} (base : List Output) (hf : ∀ {held a}, holds held a → holds' (base ++ held) (f a))
    {held last : List Output} {row : List α} (h : Rising holds held row last) :
    Rising holds' (base ++ held) (row.map f) (base ++ last) := by
  induction h with
  | still => exact .still _
  | next hs hp _ ih => exact .next (hf hs) ((List.prefix_append_right_inj base).mpr hp) ih

private theorem advances_of_quiet {path : Bytes} {content : String} {m : Metadata} {r : Run}
    (hq : Quiet r.deeds) (hread : r.volume.read path = .ok (Text.encode content)) :
    Advances path true content m r [] := by
  have hcalls : r.calls = [] := hq.calls
  have hanswers : r.answers = [] := by rw [Run.answers, hcalls]; rfl
  constructor
  case rising =>
    rw [Run.moments, hq.moments, hanswers]
    have hheld : Holds path content m [] r.volume := hread
    exact .next hheld (List.prefix_refl _) (.still _)
  case given => exact List.nil_prefix
  case stored => exact hread
  case called =>
    rw [hcalls]
    intro k call impossible
    cases impossible
  case answered =>
    rw [hanswers]
    intro k output impossible
    cases impossible
  case finished =>
    intro impossible
    cases impossible

/-- The answers of a run are the answers of its first calls. -/
private theorem Goes.answered_at {job : Job} {m : Metadata} {v after : Volume} {main : List Deed}
    {result : Except Failure Report} (h : Goes job m v main after result) {k : Nat}
    {output : Output} (hk : (outputs (calls main))[k]? = some output) :
    ∃ call, (calls main)[k]? = some call ∧ call.answer = .ok output := by
  have hok : ((calls main).map Call.answer)[k]? = some (.ok output) := by
    have hlt : k <
        ((outputs (calls main)).map Except.ok : List (Except Failure Output)).length := by
      rw [List.length_map]
      exact (List.getElem?_eq_some_iff.mp hk).1
    rcases h.answered with ha | ⟨failure, -, ha⟩
    · rw [ha, List.getElem?_map, hk]
      rfl
    · rw [ha, List.getElem?_append_left hlt, List.getElem?_map, hk]
      rfl
  rw [List.getElem?_map] at hok
  exact Option.map_eq_some_iff.mp hok

/-- The last argument of the command for a block is its number. -/
theorem block?_of_command {job : Job} {call : Call} {block : Nat}
    (h : call.command = job.command block) : call.block? = some (toString block) := by
  rw [Call.block?, h]
  rfl

/-- Every run on stored metadata advances its file. -/
theorem run_advances {settings : Settings} (utility : Utility) (bar : Nat) (draws : Draws)
    {v : Volume} {content : String} {m : Metadata}
    (stored : Metadata.Stored v settings.mpath content m) (sound : v.Sound)
    (spares : utility.Spares settings.mpath) :
    ∃ held, Advances settings.mpath settings.dryRun content m
      (run settings utility bar draws v) held := by
  cases hd : settings.dryRun with
  | true =>
    obtain ⟨hq, hread⟩ := quiet_of_dryRun utility bar draws stored hd
    exact ⟨[], advances_of_quiet hq hread⟩
  | false =>
    obtain ⟨main, around, hgoes⟩ := goes utility bar draws stored hd
    have hcalls := around.calls
    have hanswers : (run settings utility bar draws v).answers = outputs (calls main) :=
      congrArg outputs hcalls
    obtain ⟨held, row, shows, -, hok⟩ := hgoes.rising stored sound spares
    refine ⟨held, ?_⟩
    constructor
    case rising =>
      rw [around.moments, hanswers]
      have hlast : Rising (Shows settings.mpath content m settings.persistence) held
          [(outputs (calls main), (run settings utility bar draws v).volume)] held :=
        .next shows (List.prefix_refl held) (.still held)
      exact (row.append hlast).map [] Shows.read
    case given =>
      rw [hanswers]
      exact shows.given
    case stored => exact shows.read
    case called =>
      intro k call hk
      rw [hcalls] at hk
      obtain ⟨block, hb, hcommand⟩ := hgoes.command_at hk
      exact ⟨block, hb, block?_of_command hcommand⟩
    case answered =>
      intro k output hk
      rw [hanswers] at hk
      rw [hcalls]
      exact hgoes.answered_at hk
    case finished =>
      intro _ report hres
      obtain ⟨rfl, hlen⟩ := hok report hres
      rw [hlen, Metadata.candidateBlocks, List.length_map]

/-! ## Many runs -/

section
variable {path : Bytes} {dryRun : Bool} {content : String} {m : Metadata} {base : List Output}
  {e : Episode} {rest history : List Episode}

/-- The first of several runs advances the file, and the others go on from there. -/
theorem Succession.step (parsed : Metadata.parse content = .ok m)
    (h : Succession path (.ok (Text.encode (m.textAfter content base))) (e :: rest)) :
    ∃ held, Advances path e.settings.dryRun (m.textAfter content base) (m.after base) e.run held ∧
      Rising (Holds path content m) base e.volumes (base ++ held) ∧
      Succession path (.ok (Text.encode (m.textAfter content (base ++ held)))) rest := by
  obtain ⟨hpath, spares, sound, read, hrest⟩ := h
  have stored : Metadata.Stored e.start e.settings.mpath (m.textAfter content base)
      (m.after base) := ⟨hpath ▸ read, Metadata.parse_textAfter parsed base⟩
  obtain ⟨held, hadv⟩ := run_advances e.utility e.bar e.draws stored sound (hpath ▸ spares)
  rw [hpath] at hadv
  have lift : ∀ {held v}, Holds path (m.textAfter content base) (m.after base) held v →
      Holds path content m (base ++ held) v := by
    intro held v hv
    rw [Holds, Metadata.textAfter_append]
    exact hv
  refine ⟨held, hadv, ?_, ?_⟩
  · have hr := hadv.rising.map (f := id) base lift
    rw [List.append_nil, List.map_id] at hr
    exact .next read (List.prefix_refl base) hr
  · have hv : e.run.volume.read path = _ := lift hadv.stored
    exact hv ▸ hrest

/-- A call of a run is for a block that is a candidate when the run starts. -/
theorem Advances.block_mem {r : Run} {held : List Output}
    (h : Advances path dryRun content m r held) {call : Call} (hm : call ∈ r.calls) :
    ∃ block ∈ m.candidateBlocks, call.block? = some (toString block) := by
  obtain ⟨k, hk⟩ := List.getElem?_of_mem hm
  obtain ⟨block, hb, hc⟩ := h.called hk
  exact ⟨block, List.mem_of_getElem? hb, hc⟩

/-- What a run adds to the recorded outcomes are answers to its calls. -/
theorem Advances.backed {r : Run} {held : List Output}
    (h : Advances path dryRun (m.textAfter content base) (m.after base) r held) {k block : Nat}
    {output : Output} (hk : base.length ≤ k) (ho : (base ++ held)[k]? = some output)
    (hb : m.candidateBlocks[k]? = some block) :
    ∃ call ∈ r.calls, call.block? = some (toString block) ∧ call.answer = .ok output := by
  rw [List.getElem?_append_right hk] at ho
  obtain ⟨more, hmore⟩ := h.given
  have hlt := (List.getElem?_eq_some_iff.mp ho).1
  obtain ⟨call, hc, ha⟩ := h.answered (hmore ▸ (List.getElem?_append_left hlt).trans ho)
  obtain ⟨block', hb', hcall⟩ := h.called hc
  rw [Metadata.candidateBlocks_after, List.getElem?_drop, Nat.add_sub_cancel' hk, hb] at hb'
  cases hb'
  exact ⟨call, List.mem_of_getElem? hc, hcall, ha⟩

/-- Over a whole history the file holds more and more answers, each given to a call in it. -/
theorem Succession.rising (parsed : Metadata.parse content = .ok m)
    (h : Succession path (.ok (Text.encode (m.textAfter content base))) history) :
    ∃ last, Rising (Holds path content m) base (history.flatMap Episode.volumes) last ∧
      ∀ {k block : Nat} {output : Output}, base.length ≤ k → last[k]? = some output →
        m.candidateBlocks[k]? = some block →
        ∃ call ∈ history.flatMap (·.run.calls), call.block? = some (toString block) ∧
          call.answer = .ok output := by
  induction history generalizing base with
  | nil =>
    refine ⟨base, .still base, ?_⟩
    intro k block output hk ho _
    have hlt := (List.getElem?_eq_some_iff.mp ho).1
    omega
  | cons e rest ih =>
    obtain ⟨held, hadv, hrise, hrest⟩ := h.step parsed
    obtain ⟨last, hlast, hbacked⟩ := ih hrest
    refine ⟨last, hrise.append hlast, ?_⟩
    intro k block output hk ho hb
    rw [List.flatMap_cons]
    by_cases hlt : k < (base ++ held).length
    · obtain ⟨more, rfl⟩ := hlast.isPrefix
      rw [List.getElem?_append_left hlt] at ho
      obtain ⟨call, hm, hc, ha⟩ := hadv.backed hk ho hb
      exact ⟨call, List.mem_append_left _ hm, hc, ha⟩
    · obtain ⟨call, hm, hc, ha⟩ := hbacked (Nat.le_of_not_lt hlt) ho hb
      exact ⟨call, List.mem_append_right _ hm, hc, ha⟩

/-- The runs from any one on go on from where the ones before it left the file. -/
theorem Succession.split (parsed : Metadata.parse content = .ok m) {before behind : List Episode}
    (h : Succession path (.ok (Text.encode (m.textAfter content base))) (before ++ behind)) :
    ∃ more, base <+: more ∧
      Succession path (.ok (Text.encode (m.textAfter content more))) behind := by
  induction before generalizing base with
  | nil => exact ⟨base, List.prefix_refl base, h⟩
  | cons e rest ih =>
    obtain ⟨held, -, hrise, hrest⟩ := h.step parsed
    obtain ⟨more, hp, hb⟩ := ih hrest
    exact ⟨more, hrise.isPrefix.trans hp, hb⟩

/-- Without a candidate no run makes a call, and the file keeps its bytes. -/
theorem Succession.idle (parsed : Metadata.parse content = .ok m)
    (none : (m.after base).candidateBlocks = [])
    (h : Succession path (.ok (Text.encode (m.textAfter content base))) history) :
    ∀ e ∈ history, e.run.calls = [] ∧ ∀ v ∈ e.volumes, Holds path content m base v := by
  induction history with
  | nil => simp
  | cons e rest ih =>
    obtain ⟨held, hadv, hrise, hrest⟩ := h.step parsed
    have hcalls : e.run.calls = [] := by
      apply List.eq_nil_iff_forall_not_mem.mpr
      intro call hm
      obtain ⟨block, hb, -⟩ := hadv.block_mem hm
      simp [none] at hb
    have hheld : held = [] := by
      have hgiven := hadv.given
      rw [Run.answers, hcalls] at hgiven
      exact List.prefix_nil.mp hgiven
    rw [hheld, List.append_nil] at hrise hrest
    have hfirst : ∀ v ∈ e.volumes, Holds path content m base v := by
      intro v hm
      obtain ⟨some, hs, h1, h2⟩ := hrise.holds_of_mem hm
      rwa [h1.eq_of_length_le h2.length_le]
    exact List.forall_mem_cons.mpr ⟨⟨hcalls, hfirst⟩, ih hrest⟩

end

/-! ## A small history

Runs on the small file: one is stopped at its second call, a dry one follows, the next one
completes, and the last one finds nothing to do.
-/

def smallStopped : Episode :=
  ⟨smallSettings .perBlock, smallBrokenUtility, 1, smallDraws, smallVolume⟩

def smallDry : Episode :=
  ⟨{ smallSettings .perBlock with dryRun := true }, smallUtility, 1, smallDraws,
    smallStopped.run.volume⟩

def smallDone : Episode :=
  ⟨smallSettings .onCompletion, smallUtility, 1, smallDraws, smallDry.run.volume⟩

def smallIdle : Episode :=
  ⟨smallSettings .perBlock, smallUtility, 1, smallDraws, smallDone.run.volume⟩

end BlockPurge.Purge
