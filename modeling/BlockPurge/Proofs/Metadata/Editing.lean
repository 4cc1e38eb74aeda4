import BlockPurge.Proofs.Metadata.Format
import BlockPurge.Proofs.Metadata.Storing

/-!
# Edited metadata is found again

Metadata that was read may have its blocks set to any states, in any order and as often as one
likes. The literals then still denote the states, every line is still one line without white space
at its ends, and a device is still named. So the metadata is read again from its own text, and
loaded again from a file in which it was recorded, down to the spelling of its literals.
-/
namespace BlockPurge.Metadata

open Volume

/-- The metadata after a request to set a block to the state of a code. A refused request leaves it
as it is. -/
def edit (m : Metadata) (index : Nat) (code : UInt8) : Metadata :=
  match m.setState index (.ofCode code) with
  | .ok edited => edited
  | .error _ => m

/-- The metadata after several requests. -/
def editAll (m : Metadata) (requests : List (Nat × UInt8)) : Metadata :=
  requests.foldl (fun m request => m.edit request.1 request.2) m

/-- A request is granted exactly for a block that there is. -/
theorem edit_eq (m : Metadata) (index : Nat) (code : UInt8) :
    m.edit index code = if index < m.size then m.withState index (.ofCode code) else m := by
  by_cases h : index < m.size
  · have granted : m.setState index (.ofCode code) = .ok (m.withState index (.ofCode code)) :=
      if_pos h
    rw [edit, granted, if_pos h]
  · simp [edit, setState, h]

theorem Sound.edit {m : Metadata} (h : m.Sound) (index : Nat) (code : UInt8) :
    (m.edit index code).Sound := by
  rw [edit_eq]
  split
  · apply h.withState index
    rw [BlockState.code_ofCode]
  · exact h

theorem Sound.editAll {m : Metadata} (h : m.Sound) (requests : List (Nat × UInt8)) :
    (m.editAll requests).Sound := by
  induction requests generalizing m with
  | nil => exact h
  | cons request rest ih => exact ih (h.edit request.1 request.2)

/-- Sound metadata that was recorded is loaded again, unless the path may not be read. -/
theorem Sound.load_persist {m : Metadata} (h : m.Sound) {v w : Volume} {draw : Draw} {path : Bytes}
    (standing : v.Standing) (granted : m.persist v draw path = (.ok (), w))
    (plain : ¬ v.Reenters path) (readable : v.read path ≠ .error (.system .permissionDenied))
    (short : path.length ≤ longestPath) : load w path = .ok m := by
  refine Stored.load ⟨?_, parse_render h⟩
  rcases readsNew_of_replace (fun _ => standing) (replace_of_persist_ok granted) plain with
      hread | hdenied | hlong
  · exact hread
  · exact absurd hdenied readable
  · exact absurd hlong (Nat.not_lt.mpr short)

/-- Metadata is spelled as it stands, and is found again from what is written of it. -/
structure FoundAgain (m : Metadata) : Prop where
  /-- A literal denotes the state of its block. -/
  spelled : ∀ b ∈ m.blocks, ∃ code, Literal.read b.literal = .ok code ∧ b.state = .ofCode code
  /-- A header line or a literal is one line, without white space at its ends. -/
  rows : ∀ row ∈ m.lines, '\n' ∉ row.toList ∧ Text.IsBare row.toList
  device : m.device ≠ ""
  parsed : parse m.render = .ok m
  /-- What is asked of the metadata gets the same answers from what its text is read as. -/
  answers : ∀ again, parse m.render = .ok again →
    again.candidates = m.candidates ∧ again.states = m.states ∧ again.size = m.size
  /-- The same metadata is loaded from a file that it was recorded in. -/
  loaded : ∀ {v w : Volume} {draw : Draw} {path : Bytes}, v.Standing →
    m.persist v draw path = (.ok (), w) → ¬ v.Reenters path →
    v.read path ≠ .error (.system .permissionDenied) → path.length ≤ longestPath →
    load w path = .ok m

/-- **Edited metadata is found again**, whatever blocks were set and to what. -/
theorem editAll_foundAgain {content : String} {m : Metadata} (h : parse content = .ok m)
    (requests : List (Nat × UInt8)) : FoundAgain (m.editAll requests) := by
  have sound := (sound_of_parse h).editAll requests
  constructor
  case spelled => exact sound.spelled
  case rows =>
    intro row hm
    have hrow := sound.rows row hm
    exact ⟨hrow.oneLine, Text.trim_eq_self_iff.mp hrow.trimmed⟩
  case device => exact sound.device
  case parsed => exact parse_render sound
  case answers =>
    intro again hagain
    cases (parse_render sound).symm.trans hagain
    exact ⟨rfl, rfl, rfl⟩
  case loaded => exact sound.load_persist

/-! ## A small file -/

/-- A text with white space at the ends of its lines, a carriage return in one of them, and no
newline at its end. -/
def smallUneven : String := " nvme0\r\n a\rb \n\n0X4\t\n\u00a000005"

/-- What the text is read as. -/
def smallEven : Metadata :=
  ⟨"nvme0", ("a\rb", ""), [⟨.opened, "0X4"⟩, ⟨.other 0x05, "00005"⟩]⟩

/-- Of three requests the one for a block out of range is refused, and the blocks that were set are
found again in the text and in a file. -/
theorem editAll_foundAgain_small : parse smallUneven = .ok smallEven ∧
    smallEven.editAll [(0, 0x02), (7, 0x08), (0, 0xab)] =
      ⟨"nvme0", ("a\rb", ""), [⟨.other 0xab, "0xab"⟩, ⟨.other 0x05, "00005"⟩]⟩ ∧
    FoundAgain (smallEven.editAll [(0, 0x02), (7, 0x08), (0, 0xab)]) ∧
    ∃ w, (smallEven.editAll [(0, 0x02), (7, 0x08), (0, 0xab)]).persist
        (smallWith (.file [] 0o644) []) .ofNat smallPath = (.ok (), w) ∧
      load w smallPath = .ok (smallEven.editAll [(0, 0x02), (7, 0x08), (0, 0xab)]) := by
  have parsed : parse smallUneven = .ok smallEven := rfl
  have found := editAll_foundAgain parsed [(0, 0x02), (7, 0x08), (0, 0xab)]
  have leads : (smallWith (.file [] 0o644) []).Leads smallPath [[100], [109]] :=
    leads_of_locate (e := .file [] 0o644) rfl
  obtain ⟨w, granted⟩ : ∃ w, (smallEven.editAll [(0, 0x02), (7, 0x08), (0, 0xab)]).persist
      (smallWith (.file [] 0o644) []) .ofNat smallPath = (.ok (), w) := ⟨_, rfl⟩
  refine ⟨parsed, rfl, found, w, granted, ?_⟩
  apply found.loaded (standing_of_root rfl) granted (leads.not_reenters rfl)
  · intro denied
    cases denied
  · decide

end BlockPurge.Metadata
