import BlockPurge.Proofs.Config.Document
import BlockPurge.Proofs.Text.Utf8

/-!
# Configurations written and read back

What is written for a configuration is an object that gives every field its value, with no white
space between its tokens, so it is read as the same configuration, whatever the texts in it:
quotation marks, backslashes and control characters are escaped, and everything else stands for
itself.
-/
namespace BlockPurge.Config

open Json (commas spaces_nil standsFor_written)

/-! ## The object that is written -/

/-- The parts of what is written for a field. -/
def memberOf (c : Config) (field : Field) : Json.Member where
  before := []
  name := field.name.toList.flatMap Json.writeChar
  behind := []
  item := ⟨[], field.write c, []⟩

theorem text_memberOf (c : Config) (field : Field) :
    (memberOf c field).text = writeMember c field := by
  simp [memberOf, Json.Member.text, Json.Item.text, writeMember, Json.writeString]

theorem spaced_memberOf (c : Config) (field : Field) : (memberOf c field).Spaced :=
  ⟨spaces_nil, spaces_nil, spaces_nil, spaces_nil⟩

/-- What is written for a field is its value. -/
theorem writes_write (c : Config) (field : Field) :
    (Setting.of c field).Writes (field.write c) := by
  cases field with
  | mpath =>
    cases hpath : c.mpath with
    | none =>
      simp only [Setting.of, Field.write, hpath]
      exact .noPath
    | some path =>
      simp only [Setting.of, Field.write, hpath]
      exact .path (standsFor_written path)
  | dry => exact .dry c.dry
  | persist => exact .persist (standsFor_written c.persist)
  | program => exact .program (standsFor_written c.program)
  | deviceStart => exact .deviceStart (standsFor_written c.deviceStart)
  | quiet => exact .quiet c.quiet

theorem says_memberOf (c : Config) (field : Field) :
    Says (memberOf c field) (some (Setting.of c field)) := by
  refine .setting ?_ (writes_write c field)
  rw [Setting.field_of]
  exact standsFor_written field.name

theorem render_toList (c : Config) :
    c.render.toList =
      '\x7b' :: (commas ((Field.all.map (memberOf c)).map Json.Member.text) ++ ['\x7d']) := by
  have htexts : (Field.all.map (memberOf c)).map Json.Member.text =
      Field.all.map (writeMember c) := by
    rw [List.map_map]
    exact List.map_congr_left fun field _ => text_memberOf c field
  rw [htexts, render, String.toList_ofList, commas, List.cons_append]

/-- What is written for a configuration is an object that gives all fields, in order. -/
theorem document_render (c : Config) :
    Document (Field.all.map (Setting.of c)) c.render.toList := by
  have spaced : ∀ m ∈ Field.all.map (memberOf c), m.Spaced := by
    intro m hm
    obtain ⟨field, -, rfl⟩ := List.mem_map.mp hm
    exact spaced_memberOf c field
  have hsaid : List.Forall₂ Says (Field.all.map (memberOf c))
      (Field.all.map fun field => some (Setting.of c field)) := by
    rw [List.forall₂_map_left_iff, List.forall₂_map_right_iff]
    exact List.forall₂_same.mpr fun field _ => says_memberOf c field
  rw [render_toList]
  exact .members spaces_nil spaces_nil spaced hsaid

/-- A configuration is read back from what is written for it. -/
theorem parse_render (c : Config) : parse c.render = .ok c := by
  have hfields : (Field.all.map (Setting.of c)).map Setting.field = Field.all := rfl
  have once : Field.all.Nodup := by decide
  rw [parse_document (document_render c) (hfields ▸ once), overlaid_all]

/-! ## Nothing is lost -/

/-- A configuration of which nothing is lost on the way into a file and back. -/
structure Kept (c : Config) : Prop where
  /-- What is written gives every field once, in order. -/
  written : Document (Field.all.map (Setting.of c)) c.render.toList
  parsed : parse c.render = .ok c
  loaded : ∀ v path, v.read path = .ok (Text.encode c.render) → load v path = .ok c
  /-- What is read back has the same persistence, or none for the same reason. -/
  persistence : ∀ d, parse c.render = .ok d → d.persistence = c.persistence
  /-- What is read back is as valid. -/
  validate : ∀ d, parse c.render = .ok d → d.validate = c.validate
  /-- Different configurations are written differently. -/
  injective : ∀ d : Config, d.render = c.render → d = c

theorem render_kept (c : Config) : Kept c := by
  have same : ∀ d, parse c.render = .ok d → d = c := by
    intro d hd
    exact Except.ok.inj (hd.symm.trans (parse_render c))
  constructor
  case written => exact document_render c
  case parsed => exact parse_render c
  case loaded =>
    intro v path hread
    simp only [load, Volume.readText, hread, Text.decode?_encode, parse_render]
  case persistence =>
    intro d hd
    rw [same d hd]
  case validate =>
    intro d hd
    rw [same d hd]
  case injective =>
    intro d hd
    exact same d (hd ▸ parse_render d)

/-- A configuration with characters of every kind: escaped in one way or the other, and plain. -/
def oddConfig : Config :=
  ⟨some "a\"\\/\x00é😀", true, "\n\t\x1f", "", "\x7f ", false⟩

def oddVolume : Volume :=
  ⟨[([[99]], .file (Text.encode oddConfig.render) 0o644)], [], false⟩

theorem render_kept_odd :
    oddConfig.render =
      "\x7b\"mpath\":\"a\\\"\\\\/\\u0000é😀\",\"dry\":true,\"persist\":\"\\n\\t\\u001f\"," ++
        "\"program\":\"\",\"device_prefix\":\"\x7f \",\"quiet\":false\x7d" ∧
    oddVolume.read [47, 99] = .ok (Text.encode oddConfig.render) ∧
    load oddVolume [47, 99] = .ok oddConfig := by
  have hread : oddVolume.read [47, 99] = .ok (Text.encode oddConfig.render) := by decide +kernel
  refine ⟨?_, hread, (render_kept oddConfig).loaded oddVolume [47, 99] hread⟩
  decide +kernel

end BlockPurge.Config
