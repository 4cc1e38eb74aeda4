import BlockPurge.Proofs.Config.Document
import BlockPurge.Session

/-!
# Members that are left out

A configuration file need not give all fields, nor any. A field that it leaves out has the same
value as without a file, whichever fields are given, in whatever order and among whatever other
members. A metadata path of null is a path left out, and an object that gives nothing is like no
file at all.
-/
namespace BlockPurge.Config

open Json (Spaces Value quote commas)

/-- Configurations with the same values in all fields are the same. -/
theorem eq_of_of_eq {c d : Config} (h : ∀ field, Setting.of c field = Setting.of d field) :
    c = d :=
  calc
    c = d.overlaid (Field.all.map (Setting.of c)) := (overlaid_all c d).symm
    _ = d.overlaid (Field.all.map (Setting.of d)) := by rw [funext h]
    _ = d := overlaid_all d d

/-- The values that are given, without a metadata path of null. -/
def withoutNull (settings : List Setting) : List Setting :=
  settings.filter (· ≠ .mpath none)

/-- A metadata path of null says as much as none. -/
theorem overlaid_withoutNull {settings : List Setting}
    (once : (settings.map Setting.field).Nodup) :
    default.overlaid (withoutNull settings) = default.overlaid settings := by
  have onceKept : ((withoutNull settings).map Setting.field).Nodup :=
    once.sublist (List.filter_sublist.map Setting.field)
  refine eq_of_of_eq fun field => ?_
  by_cases hkept : field ∈ (withoutNull settings).map Setting.field
  · obtain ⟨setting, hm, rfl⟩ := List.mem_map.mp hkept
    rw [of_overlaid_same onceKept hm, of_overlaid_same once (List.mem_of_mem_filter hm)]
  · rw [of_overlaid_other hkept]
    by_cases hgiven : field ∈ settings.map Setting.field
    · obtain ⟨setting, hm, rfl⟩ := List.mem_map.mp hgiven
      -- A value that is given and not kept is a path of null.
      have hnull : setting = .mpath none := by
        by_contra hne
        exact hkept (List.mem_map_of_mem (List.mem_filter.mpr ⟨hm, by simpa using hne⟩))
      rw [of_overlaid_same once hm, hnull]
      rfl
    · rw [of_overlaid_other hgiven]

/-- An object with values for some fields, each given once, whose other fields are as if there were
no file. -/
structure Completed (settings : List Setting) (text : String) : Prop where
  parsed : parse text = .ok (default.overlaid settings)
  loaded : ∀ v path, v.readText path = .ok text → load v path = .ok (default.overlaid settings)
  given : ∀ setting ∈ settings, Setting.of (default.overlaid settings) setting.field = setting
  omitted : ∀ field, field ∉ settings.map Setting.field →
    Setting.of (default.overlaid settings) field = Setting.of default field
  null : default.overlaid settings = default.overlaid (withoutNull settings)
  /-- Nothing else about the text makes a difference: neither the order of its members, nor white
  space, nor the members of other names. -/
  independent : ∀ settings' text', settings.Perm settings' → Document settings' text'.toList →
    parse text' = parse text
  merged : ∀ env v a c, parse text = .ok c →
    Invocation.merge env v a (some c) =
      Invocation.merge env v a (some (default.overlaid settings))
  /-- An object that gives no field is like no file. -/
  empty : withoutNull settings = [] → ∀ host v a path,
    v.readText (Text.encode path) = .ok text →
    (∀ env c, parse text = .ok c →
      Invocation.merge env v a (some c) = Invocation.merge env v a none) ∧
    Session.start host v { a with config := some path } =
      Session.start host v { a with config := none }

theorem document_completed {settings : List Setting} {text : String}
    (h : Document settings text.toList) (once : (settings.map Setting.field).Nodup) :
    Completed settings text := by
  have parsed : parse text = .ok (default.overlaid settings) := parse_document h once
  have hload : ∀ v path, v.readText path = .ok text →
      load v path = .ok (default.overlaid settings) := by
    intro v path hread
    simp only [load, hread, parsed]
  constructor
  case parsed => exact parsed
  case loaded => exact hload
  case given => exact fun setting hm => of_overlaid_same once hm default
  case omitted => exact fun field hf => of_overlaid_other hf default
  case null => exact (overlaid_withoutNull once).symm
  case independent =>
    intro settings' text' hperm h'
    have once' : (settings'.map Setting.field).Nodup := (hperm.map _).nodup_iff.mp once
    rw [parsed, parse_document h' once', overlaid_perm hperm once]
  case merged =>
    intro env v a c hc
    rw [Except.ok.inj (hc.symm.trans parsed)]
  case empty =>
    intro hnothing host v a path hread
    have hdefault : default.overlaid settings = default := by
      rw [← overlaid_withoutNull once, hnothing]
      rfl
    constructor
    · intro env c hc
      rw [Except.ok.inj (hc.symm.trans parsed), hdefault]
      rfl
    · have hmerge : Invocation.merge host.environment v { a with config := some path }
          (some default) =
        Invocation.merge host.environment v { a with config := none } none := rfl
      have hvalid : default.validate = .ok () := by decide +kernel
      have hfile := hload v (Text.encode path) hread
      simp only [Session.start, Session.invocation, Session.configuration, hfile, hdefault, hvalid,
        hmerge]

/-! ## An object with other members -/

/-- A list of a number and an object. -/
def nested : List Char :=
  '[' :: (commas ([⟨[' '], ['-', '1', '.', '5', 'e', '+', '3'], []⟩,
    ⟨[], '\x7b' :: (commas ([⟨[], ['y'], [], [], "null".toList, [' ']⟩].map Json.Member.text) ++
      ['\x7d']), [' ']⟩].map Json.Item.text) ++ [']'])

/-- A member of another name, the program under a name with an escape, and a metadata path of null.
-/
def oddMembers : List Json.Member :=
  [⟨[' '], ['x'], [' '], [' '], nested, [' ']⟩,
   ⟨['\n'], '\x5c' :: 'u' :: (['0', '0', '7', '0'] ++ "rogram".toList.flatMap Json.writeChar), [],
     [], quote :: ("é".toList.flatMap Json.writeChar ++ [quote]), []⟩,
   ⟨[], "mpath".toList.flatMap Json.writeChar, [], ['\t'], "null".toList, []⟩]

def oddText : String :=
  String.ofList ('\x7b' :: (commas (oddMembers.map Json.Member.text) ++ ['\x7d', '\n']))

theorem value_nested : Value nested := by
  have hnull : Value "null".toList := .word (List.mem_cons_self)
  have hnumber : Value ['-', '1', '.', '5', 'e', '+', '3'] := by
    have hwhole : Json.Whole ['1'] := .digits rfl (by decide) (List.forall_mem_nil _)
    have hfraction : Json.Fraction ['.', '5'] :=
      .digits (by decide) (by simp [Json.Digits, Json.isDigit])
    have hexponent : Json.Exponent ('e' :: (['+'] ++ ['3'])) :=
      .digits (.inl rfl) (by decide) (by decide) (by simp [Json.Digits, Json.isDigit])
    exact .number (.intro (.inr rfl) hwhole hfraction hexponent)
  have hname : ∃ units, Json.Interior ['y'] units :=
    ⟨_, .cons (.plain (by decide) (by decide) (by decide)) .nil⟩
  have hobject : Value ('\x7b' ::
      (commas ([⟨[], ['y'], [], [], "null".toList, [' ']⟩].map Json.Member.text) ++ ['\x7d'])) := by
    refine .object ?_ ?_ ?_
    · simp [Json.Member.Spaced, Json.Item.Spaced, Spaces, Json.isSpace]
    · simpa using hname
    · simpa using hnull
  refine .list ?_ ?_
  · simp [Json.Item.Spaced, Spaces, Json.isSpace]
  · simpa using ⟨hnumber, hobject⟩

theorem says_oddMembers :
    List.Forall₂ Says oddMembers [none, some (.program "é"), some (.mpath none)] := by
  refine .cons ?_ (.cons ?_ (.cons ?_ .nil))
  · have hname : ∀ field : Field, "x" ≠ field.name := by
      intro field
      cases field <;> decide
    exact .nothing (Json.standsFor_written "x") hname value_nested
  · obtain ⟨units, hunits, hdenotes⟩ := Json.denotes_written "rogram".toList
    have hread : Text.readHex? ['0', '0', '7', '0'] = some 'p'.toNat := by decide +kernel
    have hcode : Json.Spells ('\x5c' :: 'u' :: ['0', '0', '7', '0']) (.code 'p'.toNat) :=
      .code rfl (Text.readHex?_eq_some_iff.mp hread).1
    have hname : Json.StandsFor ('\x5c' :: 'u' :: (['0', '0', '7', '0'] ++
        "rogram".toList.flatMap Json.writeChar)) "program" :=
      ⟨_, .cons hcode hunits, .code (by decide) hdenotes⟩
    exact .setting hname (.program (Json.standsFor_written "é"))
  · exact .setting (Json.standsFor_written "mpath") .noPath

theorem document_completed_odd :
    oddText = "\x7b \"x\" : [ -1.5e+3,\x7b\"y\":null \x7d ] ,\n" ++
      "\"\\u0070rogram\":\"é\",\"mpath\":\tnull\x7d\n" ∧
    Document [.program "é", .mpath none] oddText.toList ∧
    parse oddText = .ok { default with program := "é" } := by
  have hdocument : Document [.program "é", .mpath none] oddText.toList := by
    rw [oddText, String.toList_ofList]
    refine .members Json.spaces_nil ?_ ?_ says_oddMembers
    · simp [Spaces, Json.isSpace]
    · simp [Json.Member.Spaced, Json.Item.Spaced, Spaces, Json.isSpace]
  refine ⟨by decide +kernel, hdocument, ?_⟩
  exact (document_completed hdocument (by decide)).parsed

end BlockPurge.Config
