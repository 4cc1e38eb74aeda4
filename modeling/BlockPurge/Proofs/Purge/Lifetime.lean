import BlockPurge.Proofs.Purge.History

/-!
# The lifetime of a block

Over any history of runs the header lines and the number of blocks stay. A block changes its state
at most once, from written or open to erased or failed, and only because a call for it was answered
so. A block in any other state is not called for again, and after a completed real run no block is.
-/
namespace BlockPurge.Purge

/-- How metadata read later may differ from metadata read earlier, in view of the calls made. -/
structure Later (calls : List Call) (old new : Metadata) : Prop where
  size : new.size = old.size
  device : new.device = old.device
  reserved : new.reserved = old.reserved
  /-- A block keeps its state and its literal, or it was written or open, and is now recorded with
  the outcome of an answered call for it. -/
  block : ∀ index : Nat, new.blocks[index]? = old.blocks[index]? ∨
    (∃ b, old.blocks[index]? = some b ∧ (b.state = .written ∨ b.state = .opened)) ∧
    ∃ call ∈ calls, call.block? = some (toString index) ∧
      ∃ output, call.answer = .ok output ∧ new.blocks[index]? =
        some (if output.exit = some 0 then ⟨.erased, "0x02"⟩ else ⟨.failed, "0x08"⟩)

/-- What holds over a history of runs on the file at a path. -/
structure KeepsTerminal (path : Bytes) (history : List Episode) : Prop where
  /-- Within one run the blocks change by the calls of that run alone. -/
  within : ∀ e ∈ history, ∃ old, Metadata.load e.start path = .ok old ∧
    ∀ v ∈ e.volumes, ∃ new, Metadata.load v path = .ok new ∧ Later e.run.calls old new
  /-- So they do between any two moments of the history. -/
  throughout : (history.flatMap Episode.volumes).Pairwise fun u v =>
    ∃ old new, Metadata.load u path = .ok old ∧ Metadata.load v path = .ok new ∧
      Later (history.flatMap (·.run.calls)) old new
  /-- A block that a run finds neither written nor open is not called for from then on. -/
  spared : ∀ before e behind, history = before ++ e :: behind →
    ∀ m, Metadata.load e.start path = .ok m → ∀ (index : Nat) (state : BlockState),
      m.states[index]? = some state → state ≠ .written → state ≠ .opened →
      ∀ later ∈ e :: behind, ∀ call ∈ later.run.calls, call.block? ≠ some (toString index)
  /-- After a completed real run there are no calls, and the file keeps its bytes. -/
  completed : ∀ before e behind, history = before ++ e :: behind →
    e.settings.dryRun = false → (∃ report, e.run.result = .ok report) →
    ∀ later ∈ behind, later.run.calls = [] ∧
      ∀ v ∈ later.volumes, v.read path = e.run.volume.read path

/-- Numbers that are shown alike are equal. -/
private theorem toString_inj {a b : Nat} (h : toString a = toString b) : a = b := by
  have hd : Nat.toDigits 10 a = Nat.toDigits 10 b := by
    rw [← Nat.toList_repr, ← Nat.toList_repr]
    exact congrArg String.toList h
  have ha := congrArg (Nat.ofDigitChars 10 · 0) hd
  rwa [Nat.ofDigitChars_ten_toDigits, Nat.ofDigitChars_ten_toDigits] at ha

theorem Output.block_eq (output : Output) :
    (⟨output.state, output.state.literal⟩ : Block) =
      if output.exit = some 0 then ⟨.erased, "0x02"⟩ else ⟨.failed, "0x08"⟩ := by
  simp only [Output.state, Output.succeeded_iff]
  split <;> rfl

section
variable {path : Bytes} {content : String} {m : Metadata}

theorem Holds.load {held : List Output} {v : Volume} (h : Holds path content m held v)
    (parsed : Metadata.parse content = .ok m) : Metadata.load v path = .ok (m.after held) :=
  Metadata.Stored.load ⟨h, Metadata.parse_textAfter parsed held⟩

/-- With more answers recorded, only blocks change that were candidates and have been answered. -/
theorem later_of_prefix {base held more last : List Output} {cs : List Call}
    (hb : base <+: held) (hp : held <+: more) (hl : more <+: last)
    (backed : ∀ {k block : Nat} {output : Output}, base.length ≤ k → last[k]? = some output →
      m.candidateBlocks[k]? = some block →
      ∃ call ∈ cs, call.block? = some (toString block) ∧ call.answer = .ok output) :
    Later cs (m.after held) (m.after more) := by
  obtain ⟨extra, rfl⟩ := hp
  obtain ⟨tail, rfl⟩ := hl
  rw [Metadata.after_append]
  obtain ⟨hs, hd, hr⟩ := (m.after held).header_after extra
  refine ⟨hs, hd, hr, ?_⟩
  intro index
  rcases (m.after held).block_after extra index with he | ⟨k, output, hk, ho, hnew⟩
  · exact .inl he
  right
  constructor
  · obtain ⟨⟨i, state⟩, hm, rfl⟩ := List.mem_map.mp (List.mem_of_getElem? hk)
    obtain ⟨hstate, he⟩ := Metadata.mem_candidates_iff.mp hm
    rw [Metadata.states, List.getElem?_map] at hstate
    obtain ⟨b, hblock, rfl⟩ := Option.map_eq_some_iff.mp hstate
    refine ⟨b, hblock, ?_⟩
    cases hbs : b.state <;> simp_all [BlockState.isErasable]
  · rw [Metadata.candidateBlocks_after, List.getElem?_drop] at hk
    have hlast : (held ++ extra ++ tail)[held.length + k]? = some output := by
      have hlt := (List.getElem?_eq_some_iff.mp ho).1
      rw [List.append_assoc, List.getElem?_append_right (Nat.le_add_right _ _),
        Nat.add_sub_cancel_left, List.getElem?_append_left hlt, ho]
    obtain ⟨call, hm, hc, ha⟩ := backed (hb.length_le.trans (Nat.le_add_right _ _)) hlast hk
    exact ⟨call, hm, hc, output, ha, by rw [hnew, Output.block_eq]⟩

/-- A call is for a block that was a candidate at any earlier run. -/
private theorem Succession.block_mem {base : List Output} {history : List Episode}
    (parsed : Metadata.parse content = .ok m)
    (h : Succession path (.ok (Text.encode (m.textAfter content base))) history) {e : Episode}
    (he : e ∈ history) {call : Call} (hm : call ∈ e.run.calls) :
    ∃ block ∈ (m.after base).candidateBlocks, call.block? = some (toString block) := by
  obtain ⟨before, behind, rfl⟩ := List.append_of_mem he
  obtain ⟨more, hp, hrest⟩ := h.split parsed
  obtain ⟨held, hadv, -⟩ := hrest.step parsed
  obtain ⟨block, hb, hc⟩ := hadv.block_mem hm
  refine ⟨block, ?_, hc⟩
  rw [Metadata.candidateBlocks_after] at hb ⊢
  exact (List.drop_sublist_drop_left _ hp.length_le).subset hb

/-- Over every history of runs on a metadata file that nobody else writes, the states that a purge
leaves are final. -/
theorem history_keepsTerminal {history : List Episode} (parsed : Metadata.parse content = .ok m)
    (h : Succession path (.ok (Text.encode content)) history) : KeepsTerminal path history := by
  have hstart : Succession path (.ok (Text.encode (m.textAfter content []))) history := h
  constructor
  case within =>
    intro e he
    obtain ⟨before, behind, rfl⟩ := List.append_of_mem he
    obtain ⟨base, -, hrest⟩ := hstart.split parsed
    obtain ⟨hpath, spares, sound, read, -⟩ := hrest
    have halone : Succession path (.ok (Text.encode (m.textAfter content base))) [e] :=
      ⟨hpath, spares, sound, read, trivial⟩
    obtain ⟨last, hrise, hbacked⟩ := halone.rising parsed
    refine ⟨m.after base, Holds.load read parsed, ?_⟩
    intro v hv
    have hv : v ∈ [e].flatMap Episode.volumes := by simpa using hv
    obtain ⟨some, hholds, hb, hl⟩ := hrise.holds_of_mem hv
    have hlater := later_of_prefix (List.prefix_refl base) hb hl hbacked
    rw [List.flatMap_singleton] at hlater
    exact ⟨m.after some, hholds.load parsed, hlater⟩
  case throughout =>
    obtain ⟨last, hrise, hbacked⟩ := hstart.rising parsed
    apply hrise.pairwise.imp
    intro u v hboth
    obtain ⟨held, more, hu, hv, hb, hp, hl⟩ := hboth
    have hlater := later_of_prefix hb hp hl hbacked
    exact ⟨m.after held, m.after more, hu.load parsed, hv.load parsed, hlater⟩
  case spared =>
    intro before e behind heq old hload index state hs hw ho later hm call hcall hblock
    subst heq
    obtain ⟨base, -, hrest⟩ := hstart.split parsed
    have hold := (Holds.load hrest.2.2.2.1 parsed).symm.trans hload
    have heq := Except.ok.inj hold
    subst heq
    obtain ⟨block, hb, hc⟩ := Succession.block_mem parsed hrest hm hcall
    have heq : block = index := toString_inj (Option.some.inj (hc.symm.trans hblock))
    subst heq
    obtain ⟨⟨i, s⟩, hcand, rfl⟩ := List.mem_map.mp hb
    obtain ⟨hs', he⟩ := Metadata.mem_candidates_iff.mp hcand
    have heq := Option.some.inj (hs.symm.trans hs')
    subst heq
    cases state <;> simp_all [BlockState.isErasable]
  case completed =>
    intro before e behind heq real hres later hm
    subst heq
    obtain ⟨base, -, hrest⟩ := hstart.split parsed
    obtain ⟨held, hadv, -, hbehind⟩ := hrest.step parsed
    obtain ⟨report, hres⟩ := hres
    have hlen := hadv.finished real report hres
    have hnone : (m.after (base ++ held)).candidateBlocks = [] := by
      rw [Metadata.after_append, Metadata.candidateBlocks_after, hlen, List.drop_length]
    obtain ⟨hcalls, hholds⟩ := hbehind.idle parsed hnone later hm
    have hend := hadv.stored
    rw [Holds, ← Metadata.textAfter_append] at hend
    refine ⟨hcalls, ?_⟩
    intro v hv
    exact (hholds v hv).trans hend.symm

end

/-- On the small file: a run that is stopped at its second call, a dry one, one that completes, and
one that is left with nothing to do. -/
theorem history_keepsTerminal_small :
    KeepsTerminal [47, 100, 47, 109] [smallStopped, smallDry, smallDone, smallIdle] ∧
    [smallStopped, smallDry, smallDone, smallIdle].map (·.run.calls.length) = [2, 0, 1, 0] :=
  ⟨history_keepsTerminal small_stored.parsed
    ⟨rfl, small_broken_spares, small_sound, small_stored.read,
      rfl, small_spares, Volume.sound_of_root (by decide +kernel), by rw [smallDry],
      rfl, small_spares, Volume.sound_of_root (by decide +kernel), by rw [smallDone],
      rfl, small_spares, Volume.sound_of_root (by decide +kernel), by rw [smallIdle], trivial⟩,
    by decide +kernel⟩

end BlockPurge.Purge
