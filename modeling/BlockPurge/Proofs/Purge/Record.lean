import BlockPurge.Proofs.Purge.Outcome

/-!
# The record of a real run at every moment

Recording block by block, the file is at most one answer behind, and it is up to date whenever a
candidate is called for. Recording on completion, it keeps its bytes until the run ends well. Either
way the first call without an answer and the first refused write are the end of all calls.
-/
namespace BlockPurge.Purge

/-- What the file holds at the moments of a real run, and how the run comes to an early end. -/
structure KeepsRecord (settings : Settings) (utility : Utility) (content : String) (m : Metadata)
    (r : Run) : Prop where
  /-- Block by block: when the candidate with number `k` is called for, the candidates before it
  have been answered, and the file holds their outcomes and no other; the candidate shows its old
  literal. -/
  perBlock : settings.persistence = .perBlock → ∀ k call, r.calls[k]? = some call →
    ∃ block, m.candidateBlocks[k]? = some block ∧
      call.command =
        Erase.command settings.program (settings.deviceStart ++ m.device) block ∧
      (r.answers.take k).length = k ∧
      (r.calls.take k).map Call.answer = (r.answers.take k).map .ok ∧
      call.before.read settings.mpath =
        .ok (Text.encode (m.textAfter content (r.answers.take k))) ∧
      (Metadata.rows (m.textAfter content (r.answers.take k)))[block + 3]? =
        (Metadata.rows content)[block + 3]?
  /-- Block by block: at any moment the file holds all outcomes but at most the last. -/
  lag : settings.persistence = .perBlock → ∀ moment ∈ r.moments, ∃ n, n ≤ moment.1.length ∧
    moment.1.length ≤ n + 1 ∧ moment.2.read settings.mpath =
      .ok (Text.encode (m.textAfter content (moment.1.take n)))
  /-- On completion: the file has its old bytes at every call, and always if the run fails. -/
  onCompletion : settings.persistence = .onCompletion →
    (∀ call ∈ r.calls, call.before.read settings.mpath = .ok (Text.encode content)) ∧
    ∀ failure, r.result = .error failure → ∀ moment ∈ r.moments,
      moment.2.read settings.mpath = .ok (Text.encode content)
  /-- No call follows a call without an answer or a refused replacement. -/
  stops : ∀ past deed future, r.deeds = past ++ deed :: future → deed.Fails → calls future = []
  /-- The answers are those of the utility. -/
  given : ∀ call ∈ r.calls, call.answer = (utility call.before call.command).1
  /-- A call without an answer ends the run. The volume stays as the utility left it, with the bytes
  in the file that were there when the call was made. -/
  unanswered : ∀ call ∈ r.calls, ∀ failure, call.answer = .error failure →
    r.result = .error failure ∧ r.volume = (utility call.before call.command).2 ∧
      r.volume.read settings.mpath = call.before.read settings.mpath

theorem Run.Around.stopsAtFailure {r : Run} {main : List Deed} (h : r.Around main)
    (hs : StopsAtFailure main) : StopsAtFailure r.deeds := by
  obtain ⟨before, behind, hb, hd, he⟩ := h
  rw [he]
  refine stopsAtFailure_append ?_ (stopsAtFailure_of_calls hd.calls) (.inr hd.calls)
  exact stopsAtFailure_append (stopsAtFailure_of_calls hb.calls) hs
    (.inl fun deed hm fails => fails.not_quiet hb hm)

/-- The rows of the file while answers are recorded, at a candidate whose turn has not come. -/
private theorem row_after {content : String} {m : Metadata}
    (parsed : Metadata.parse content = .ok m) {answers : List Output} {k block : Nat}
    (hk : m.candidateBlocks[k]? = some block) (hle : answers.length ≤ k) :
    (Metadata.rows (m.textAfter content answers))[block + 3]? =
      (Metadata.rows content)[block + 3]? := by
  rw [Metadata.rows_of_parse (Metadata.parse_textAfter parsed answers),
    Metadata.rows_of_parse parsed]
  change ((m.after answers).blocks.map Block.literal)[block]? =
    (m.blocks.map Block.literal)[block]?
  rw [List.getElem?_map, List.getElem?_map, Metadata.block_after_of_le hk hle]

/-- Every real run keeps its record. -/
theorem run_keepsRecord {settings : Settings} {utility : Utility} {bar : Nat} {draws : Draws}
    {v : Volume} {content : String} {m : Metadata}
    (stored : Metadata.Stored v settings.mpath content m)
    (sound : v.Sound) (real : settings.dryRun = false) (spares : utility.Spares settings.mpath) :
    KeepsRecord settings utility content m (run settings utility bar draws v) := by
  obtain ⟨main, around, hgoes⟩ := goes utility bar draws stored real
  have hcalls := around.calls
  have hanswers : (run settings utility bar draws v).answers = outputs (calls main) :=
    congrArg outputs hcalls
  obtain ⟨held, row, shows, hnone, -⟩ := hgoes.rising stored sound spares
  have shown : ∀ moment ∈ (run settings utility bar draws v).moments, ∃ some,
      Shows settings.mpath content m settings.persistence some moment ∧ some <+: held := by
    intro moment hm
    rw [around.moments, hanswers] at hm
    rcases List.mem_append.mp hm with hm | hm
    · obtain ⟨some, hs, -, hp⟩ := row.holds_of_mem hm
      exact ⟨some, hs, hp⟩
    · have heq := List.mem_singleton.mp hm
      subst heq
      exact ⟨held, shows, List.prefix_refl held⟩
  have atCall : ∀ {k : Nat} {call : Call},
      (run settings utility bar draws v).calls[k]? = some call →
      call.before.read settings.mpath = .ok (Text.encode (m.textAfter content
        (settings.persistence.recorded ((run settings utility bar draws v).answers.take k)))) := by
    intro k call hk
    rw [hcalls] at hk
    rw [hanswers]
    exact hgoes.read_at_call stored sound spares hk
  constructor
  case perBlock =>
    intro ht k call hk
    have hread := atCall hk
    rw [hcalls] at hk ⊢
    rw [hanswers] at hread ⊢
    obtain ⟨hlen, hans⟩ := hgoes.answered_before hk
    obtain ⟨block, hblock, hcommand⟩ := hgoes.command_at hk
    have hrow := row_after stored.parsed hblock hlen.le
    rw [ht] at hread
    exact ⟨block, hblock, hcommand, hlen, hans, hread, hrow⟩
  case lag =>
    intro ht moment hm
    obtain ⟨some, hs, -⟩ := shown moment hm
    have htake := List.prefix_iff_eq_take.mp hs.given
    have hread := hs.read
    rw [htake] at hread
    exact ⟨some.length, hs.given.length_le, hs.lag ht, hread⟩
  case onCompletion =>
    intro ht
    constructor
    · intro call hm
      obtain ⟨k, hk⟩ := List.getElem?_of_mem hm
      have hread := atCall hk
      rw [ht] at hread
      exact hread
    · intro failure hf moment hm
      obtain ⟨some, hs, hp⟩ := shown moment hm
      rw [hnone ht ⟨failure, hf⟩, List.prefix_nil] at hp
      subst hp
      exact hs.read
  case stops =>
    intro past deed future he fails
    have hs := around.stopsAtFailure hgoes.stopsAtFailure
    rw [he] at hs
    have hlast := (List.pairwise_append.mp hs).2.1
    apply List.filterMap_eq_nil_iff.mpr
    intro later hl
    exact (List.pairwise_cons.mp hlast).1 later hl fails
  case given =>
    rw [hcalls]
    exact hgoes.called
  case unanswered =>
    intro call hm failure hf
    rw [hcalls] at hm
    obtain ⟨hres, hv⟩ := hgoes.volume_of_unanswered hm hf
    have hread := spares.read call.before call.command
    exact ⟨hres, hv, hv ▸ hread⟩

/-- A run on the small file that is stopped at its second call has recorded the first one. -/
theorem run_keepsRecord_small :
    KeepsRecord (smallSettings .perBlock) smallBrokenUtility smallText smallMetadata
      (run (smallSettings .perBlock) smallBrokenUtility 1 smallDraws smallVolume) ∧
    (run (smallSettings .perBlock) smallBrokenUtility 1 smallDraws smallVolume).calls.length = 2 ∧
    ((run (smallSettings .perBlock) smallBrokenUtility 1 smallDraws smallVolume).volume.read
      [47, 100, 47, 109]).toOption = some (Text.encode "nvme0\n\n\n0x02\n0x5\n0X4\n") :=
  ⟨run_keepsRecord small_stored small_sound rfl small_broken_spares, by decide +kernel,
    by decide +kernel⟩

end BlockPurge.Purge
