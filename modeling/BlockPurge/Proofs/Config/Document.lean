import BlockPurge.Config.Written
import BlockPurge.Proofs.Json.Value
import Mathlib.Data.List.Forall2
import Mathlib.Data.List.Nodup
import Mathlib.Data.List.Perm.Basic
import Mathlib.Data.List.ReduceOption

/-!
# Configurations as objects

What an object says about a configuration: members named after fields give them values, and all
other members say nothing, whatever their values. If no field is given twice, the object is read as
the default configuration with the given values in it, so that the order of the members does not
matter, nor the white space, nor the other members. What is written for a configuration is such an
object.
-/
namespace BlockPurge.Config

open Json (Spaces StandsFor Value Ends ends_more quote commas commas_cons)

/-! ## Values for fields -/

/-- A value for a field. -/
inductive Setting where
  | mpath (path : Option String)
  | dry (flag : Bool)
  | persist (word : String)
  | program (name : String)
  | deviceStart (text : String)
  | quiet (flag : Bool)
  deriving DecidableEq, Repr

namespace Setting

def field : Setting → Field
  | .mpath _ => .mpath
  | .dry _ => .dry
  | .persist _ => .persist
  | .program _ => .program
  | .deviceStart _ => .deviceStart
  | .quiet _ => .quiet

/-- A configuration with the value in its field. -/
def put (c : Config) : Setting → Config
  | .mpath path => { c with mpath := path }
  | .dry flag => { c with dry := flag }
  | .persist word => { c with persist := word }
  | .program name => { c with program := name }
  | .deviceStart text => { c with deviceStart := text }
  | .quiet flag => { c with quiet := flag }

/-- The value that a configuration has in a field. -/
def of (c : Config) : Field → Setting
  | .mpath => .mpath c.mpath
  | .dry => .dry c.dry
  | .persist => .persist c.persist
  | .program => .program c.program
  | .deviceStart => .deviceStart c.deviceStart
  | .quiet => .quiet c.quiet

@[simp] theorem field_of (c : Config) (field : Field) : (of c field).field = field := by
  cases field <;> rfl

theorem of_put_same (c : Config) (setting : Setting) :
    of (setting.put c) setting.field = setting := by
  cases setting <;> rfl

theorem of_put_other (c : Config) {setting : Setting} {field : Field} (h : setting.field ≠ field) :
    of (setting.put c) field = of c field := by
  cases setting <;> cases field <;> first | rfl | exact absurd rfl h

/-- Values for different fields may be put in either order. -/
theorem put_comm (c : Config) {one other : Setting} (h : one.field ≠ other.field) :
    one.put (other.put c) = other.put (one.put c) := by
  cases one <;> cases other <;> first | rfl | exact absurd rfl h

end Setting

/-- A configuration with values put into it, one after the other. -/
def overlaid (c : Config) (settings : List Setting) : Config :=
  settings.foldl Setting.put c

theorem overlaid_append (c : Config) (settings more : List Setting) :
    c.overlaid (settings ++ more) = (c.overlaid settings).overlaid more :=
  List.foldl_append

/-- The order of values for different fields does not matter. -/
theorem overlaid_perm {settings settings' : List Setting} (h : settings.Perm settings')
    (once : (settings.map Setting.field).Nodup) (c : Config) :
    c.overlaid settings = c.overlaid settings' := by
  refine h.foldl_eq' (fun one hone other hother c => ?_) c
  by_cases he : one = other
  · rw [he]
  · refine Setting.put_comm c fun hf => he ?_
    exact List.inj_on_of_nodup_map once hother hone hf ▸ rfl

theorem of_overlaid_other {settings : List Setting} {field : Field}
    (h : field ∉ settings.map Setting.field) (c : Config) :
    Setting.of (c.overlaid settings) field = Setting.of c field := by
  induction settings generalizing c with
  | nil => rfl
  | cons setting rest ih =>
    simp only [List.map_cons, List.mem_cons, not_or] at h
    exact (ih h.2 (setting.put c)).trans (Setting.of_put_other c (Ne.symm h.1))

theorem of_overlaid_same {settings : List Setting} (once : (settings.map Setting.field).Nodup)
    {setting : Setting} (hm : setting ∈ settings) (c : Config) :
    Setting.of (c.overlaid settings) setting.field = setting := by
  induction settings generalizing c with
  | nil => cases hm
  | cons first rest ih =>
    obtain ⟨hfirst, hrest⟩ := List.nodup_cons.mp once
    rcases List.mem_cons.mp hm with rfl | hm
    · exact (of_overlaid_other hfirst _).trans (Setting.of_put_same c setting)
    · exact ih hrest hm (first.put c)

theorem overlaid_all (c d : Config) : d.overlaid (Field.all.map (Setting.of c)) = c := by
  cases c
  rfl

/-! ## Members -/

/-- A text is that of a value for a field: a word, or a string that stands for a text. -/
inductive Setting.Writes : Setting → List Char → Prop
  | noPath : Writes (.mpath none) "null".toList
  | path {s : List Char} {path : String} : StandsFor s path →
      Writes (.mpath (some path)) (quote :: (s ++ [quote]))
  | dry (flag : Bool) : Writes (.dry flag) (toString flag).toList
  | persist {s : List Char} {word : String} : StandsFor s word →
      Writes (.persist word) (quote :: (s ++ [quote]))
  | program {s : List Char} {name : String} : StandsFor s name →
      Writes (.program name) (quote :: (s ++ [quote]))
  | deviceStart {s : List Char} {text : String} : StandsFor s text →
      Writes (.deviceStart text) (quote :: (s ++ [quote]))
  | quiet (flag : Bool) : Writes (.quiet flag) (toString flag).toList

/-- What a member says: a value for the field that it is named after, or nothing if it is named
after none and has any value at all. -/
inductive Says : Json.Member → Option Setting → Prop
  | setting {m : Json.Member} {setting : Setting} : StandsFor m.name setting.field.name →
      setting.Writes m.item.value → Says m (some setting)
  | nothing {m : Json.Member} {name : String} : StandsFor m.name name →
      (∀ field : Field, name ≠ field.name) → Value m.item.value → Says m none

/-- A text is an object, with white space around it, whose members give the values in that order. -/
inductive Document : List Setting → List Char → Prop
  | empty {before inside after : List Char} : Spaces before → Spaces inside → Spaces after →
      Document [] (before ++ '\x7b' :: (inside ++ '\x7d' :: after))
  | members {before after : List Char} {first : Json.Member} {rest : List Json.Member}
      {said : List (Option Setting)} : Spaces before → Spaces after →
      (∀ m ∈ first :: rest, m.Spaced) → List.Forall₂ Says (first :: rest) said →
      Document (said.reduceOption)
        (before ++ '\x7b' :: (commas ((first :: rest).map Json.Member.text) ++ '\x7d' :: after))

/-! ## Reading -/

theorem readText_append {before s : List Char} {text : String} (hb : Spaces before)
    (h : StandsFor s text) (t : List Char) :
    Json.readText (before ++ (quote :: (s ++ [quote]) ++ t)) = .ok (text, t) := by
  rw [Json.readText, Json.skipSpace_append hb, List.cons_append, Json.skipSpace_cons rfl,
    List.append_assoc]
  exact Json.readString_of_standsFor h t

theorem readFlag_append {before : List Char} (hb : Spaces before) (flag : Bool) (t : List Char) :
    Json.readFlag (before ++ ((toString flag).toList ++ t)) = .ok (flag, t) := by
  rw [Json.readFlag, Json.skipSpace_append hb]
  cases flag <;> rfl

theorem readTextOrNull_append {before s : List Char} {path : String} (hb : Spaces before)
    (h : StandsFor s path) (t : List Char) :
    Json.readTextOrNull (before ++ (quote :: (s ++ [quote]) ++ t)) = .ok (some path, t) := by
  have hread := readText_append Json.spaces_nil h t
  rw [Json.readTextOrNull, Json.skipSpace_append hb, List.cons_append, Json.skipSpace_cons rfl]
  rw [List.nil_append, List.cons_append] at hread
  split
  · rename_i hnull
    cases hnull
  · rw [hread]

/-- A value for a field is read where the field has its value. -/
theorem Setting.Writes.read {setting : Setting} {value before : List Char}
    (h : setting.Writes value) (hb : Spaces before) (c : Config) (t : List Char) :
    setting.field.read c (before ++ (value ++ t)) = .ok (setting.put c, t) := by
  cases h with
  | noPath =>
    have hread : Json.readTextOrNull (before ++ ("null".toList ++ t)) = .ok (none, t) := by
      rw [Json.readTextOrNull, Json.skipSpace_append hb]
      rfl
    simp only [Setting.field, Field.read, hread]
    rfl
  | path hs =>
    simp only [Setting.field, Field.read, readTextOrNull_append hb hs]
    rfl
  | dry flag =>
    simp only [Setting.field, Field.read, readFlag_append hb flag]
    rfl
  | persist hs =>
    simp only [Setting.field, Field.read, readText_append hb hs]
    rfl
  | program hs =>
    simp only [Setting.field, Field.read, readText_append hb hs]
    rfl
  | deviceStart hs =>
    simp only [Setting.field, Field.read, readText_append hb hs]
    rfl
  | quiet flag =>
    simp only [Setting.field, Field.read, readFlag_append hb flag]
    rfl

theorem ofName?_name (field : Field) : Field.ofName? field.name = some field := by
  cases field <;> decide

theorem ofName?_eq_none {name : String} (h : ∀ field : Field, name ≠ field.name) :
    Field.ofName? name = none := by
  refine List.find?_eq_none.mpr fun field _ heq => h field ?_
  exact (beq_iff_eq.mp heq).symm

/-- The text of a member from its opening quotation mark, with a text behind its value. -/
def fromName (m : Json.Member) (t : List Char) : List Char :=
  quote :: (m.name ++ quote :: (m.behind ++ ':' :: (m.item.before ++ (m.item.value ++ t))))

theorem text_append (m : Json.Member) (t : List Char) :
    m.text ++ t = m.before ++ fromName m (m.item.after ++ t) := by
  simp [Json.Member.text, Json.Item.text, fromName]

theorem afterColon_append {s : List Char} (h : Spaces s) (t : List Char) :
    Json.afterColon (s ++ ':' :: t) = .ok t := by
  rw [Json.afterColon, Json.skipSpace_append h, Json.skipSpace_cons rfl]
  exact if_pos rfl

/-- A member named after a field is read as the value that it gives. -/
theorem readMember_setting {m : Json.Member} {setting : Setting} (spaced : m.Spaced)
    (hsaid : Says m (some setting)) {given : List Field} (hnew : setting.field ∉ given) (c : Config)
    (t : List Char) :
    readMember given c (fromName m t) = .ok (setting.field :: given, setting.put c, t) := by
  obtain ⟨-, hbehind, hbefore, -⟩ := spaced
  cases hsaid with
  | setting hname hvalue =>
    simp only [readMember, readName, fromName, if_true, Json.readString_of_standsFor hname,
      ofName?_name, if_neg hnew, afterColon_append hbehind, hvalue.read hbefore]
    rfl

/-- A member of any other name is passed over. -/
theorem readMember_nothing {m : Json.Member} (spaced : m.Spaced) (hsaid : Says m none)
    (given : List Field) (c : Config) {t : List Char} (ht : Ends t) :
    readMember given c (fromName m t) = .ok (given, c, t) := by
  obtain ⟨-, hbehind, hbefore, -⟩ := spaced
  cases hsaid with
  | nothing hname hother hvalue =>
    simp only [readMember, readName, fromName, if_true, Json.readString_of_standsFor hname,
      ofName?_eq_none hother, afterColon_append hbehind,
      Json.skipValue_append hbefore hvalue ht]
    rfl

theorem nextItem_closed (closing : Char) {first : Bool} {s : List Char} (h : Spaces s)
    (hc : Json.isSpace closing = false) (t : List Char) :
    Json.nextItem closing first (s ++ closing :: t) = .ok (.closed t) := by
  rw [Json.nextItem, Json.skipSpace_append h, Json.skipSpace_cons hc]
  exact if_pos rfl

theorem nextItem_first {before : List Char} (h : Spaces before) (m : Json.Member) (t : List Char) :
    Json.nextItem '\x7d' true (before ++ fromName m t) = .ok (.item (fromName m t)) := by
  rw [Json.nextItem, Json.skipSpace_append h, fromName, Json.skipSpace_cons rfl]
  rfl

theorem nextItem_comma {s before : List Char} (h : Spaces s) (hb : Spaces before)
    (m : Json.Member) (t : List Char) :
    Json.nextItem '\x7d' false (s ++ ',' :: (before ++ fromName m t)) =
      .ok (.item (fromName m t)) := by
  simp only [Json.nextItem, Json.skipSpace_append h, Json.skipSpace_cons (c := ',') rfl,
    Json.skipSpace_append hb, fromName, Json.skipSpace_cons (c := quote) rfl]
  rfl

/-- A member is read as what it says, and the field that it gives joins those given before. -/
theorem readMember_said {m : Json.Member} {saying : Option Setting} (spaced : m.Spaced)
    (hsaid : Says m saying) {given : List Field}
    (hnew : ∀ setting ∈ saying, setting.field ∉ given) (c : Config) {t : List Char} (ht : Ends t) :
    readMember given c (fromName m t) =
      .ok ((saying.toList.map Setting.field) ++ given, c.overlaid saying.toList, t) := by
  cases saying with
  | none => exact readMember_nothing spaced hsaid given c ht
  | some setting => exact readMember_setting spaced hsaid (hnew setting rfl) c t

theorem reduceOption_cons (saying : Option Setting) (more : List (Option Setting)) :
    (saying :: more).reduceOption = saying.toList ++ more.reduceOption := by
  cases saying <;> rfl

/-- What stands behind a member: other members, each behind a comma, and the end of the object. -/
def behind (members : List Json.Member) (t : List Char) : List Char :=
  (members.map Json.Member.text).flatMap (',' :: ·) ++ '\x7d' :: t

theorem behind_cons (m : Json.Member) (rest : List Json.Member) (t : List Char) :
    behind (m :: rest) t =
      ',' :: (m.before ++ fromName m (m.item.after ++ behind rest t)) := by
  rw [behind, List.map_cons, List.flatMap_cons, List.append_assoc, List.cons_append, text_append,
    behind]

theorem ends_behind (members : List Json.Member) (t : List Char) : Ends (behind members t) :=
  ends_more (by simp) t

theorem readMembers_item {first : Bool} {given : List Field} {c : Config} {s : List Char}
    {m : Json.Member} {saying : Option Setting} {t : List Char}
    (hitem : Json.nextItem '\x7d' first s = .ok (.item (fromName m t))) (spaced : m.Spaced)
    (hsaid : Says m saying) (hnew : ∀ setting ∈ saying, setting.field ∉ given) (ht : Ends t)
    (budget : Nat) :
    readMembers (budget + 1) first given c s =
      readMembers budget false (saying.toList.map Setting.field ++ given)
        (c.overlaid saying.toList) t := by
  rw [readMembers, hitem]
  simp only [readMember_said spaced hsaid hnew c ht]

/-- If no field is given twice, neither a member nor those behind it give one that was given. -/
theorem nodup_behind {saying : Option Setting} {more : List (Option Setting)} {given : List Field}
    (once : ((saying :: more).reduceOption.map Setting.field ++ given).Nodup) :
    (∀ setting ∈ saying, setting.field ∉ given) ∧
      (more.reduceOption.map Setting.field ++
        (saying.toList.map Setting.field ++ given)).Nodup := by
  rw [reduceOption_cons, List.map_append, List.append_assoc] at once
  constructor
  · intro setting hset hgiven
    have hin : setting.field ∈ saying.toList.map Setting.field :=
      List.mem_map_of_mem (Option.mem_toList.mpr hset)
    exact List.disjoint_of_nodup_append once hin (List.mem_append_right _ hgiven)
  · exact (List.perm_append_comm_assoc _ _ _).nodup_iff.mp once

/-- Behind a member, members are read one by one up to the end of the object. -/
theorem readMembers_behind {members : List Json.Member} {said : List (Option Setting)}
    (hsaid : List.Forall₂ Says members said) (spaced : ∀ m ∈ members, m.Spaced)
    {given : List Field} (once : (said.reduceOption.map Setting.field ++ given).Nodup) (c : Config)
    {budget : Nat} (hb : members.length < budget) {s : List Char} (hs : Spaces s) (t : List Char) :
    readMembers budget false given c (s ++ behind members t) =
      .ok (c.overlaid said.reduceOption, t) := by
  -- The white space in front is that behind the last member read, so it changes with the members.
  induction hsaid generalizing given c budget s with
  | nil =>
    obtain ⟨budget, rfl⟩ := Nat.exists_eq_succ_of_ne_zero (Nat.ne_of_gt hb)
    rw [readMembers, behind, List.map_nil, List.flatMap_nil, List.nil_append,
      nextItem_closed '\x7d' hs rfl]
    rfl
  | @cons m saying rest more hm _ ih =>
    obtain ⟨budget, rfl⟩ := Nat.exists_eq_succ_of_ne_zero (Nat.ne_of_gt (Nat.zero_lt_of_lt hb))
    obtain ⟨hspaced, hspacedRest⟩ := List.forall_mem_cons.mp spaced
    obtain ⟨hnew, onceRest⟩ := nodup_behind once
    have hafter : Spaces m.item.after := hspaced.2.2.2
    rw [behind_cons, readMembers_item (nextItem_comma hs hspaced.1 m _) hspaced hm hnew
      ((ends_behind rest t).spaces hafter), ih hspacedRest onceRest _ (Nat.lt_of_succ_lt_succ hb)
      hafter, reduceOption_cons, overlaid_append]

/-- The members of an object are read one by one from the first one on. -/
theorem readMembers_first {first : Json.Member} {rest : List Json.Member}
    {said : List (Option Setting)} (hsaid : List.Forall₂ Says (first :: rest) said)
    (spaced : ∀ m ∈ first :: rest, m.Spaced)
    (once : (said.reduceOption.map Setting.field).Nodup) (c : Config) {budget : Nat}
    (hb : rest.length < budget) (t : List Char) :
    readMembers (budget + 1) true [] c (first.text ++ behind rest t) =
      .ok (c.overlaid said.reduceOption, t) := by
  obtain ⟨hspaced, hspacedRest⟩ := List.forall_mem_cons.mp spaced
  cases hsaid with
  | cons hfirst hrest =>
    rw [← List.append_nil (List.map _ _)] at once
    obtain ⟨hnew, onceRest⟩ := nodup_behind once
    have hafter : Spaces first.item.after := hspaced.2.2.2
    rw [text_append, readMembers_item (nextItem_first hspaced.1 first _) hspaced hfirst hnew
      ((ends_behind rest t).spaces hafter), readMembers_behind hrest hspacedRest onceRest _ hb
      hafter, reduceOption_cons, overlaid_append]

/-- There are no more members than characters behind them. -/
theorem length_behind (members : List Json.Member) (t : List Char) :
    members.length < (behind members t).length := by
  induction members with
  | nil => simp [behind]
  | cons m rest ih =>
    rw [behind_cons, fromName]
    simp only [List.length_cons, List.length_append]
    omega

theorem finish_spaces {s : List Char} (h : Spaces s) : Json.finish s = .ok () := by
  rw [Json.finish, Json.skipSpace, List.dropWhile_eq_nil_iff.mpr h]
  rfl

theorem readValue_document {settings : List Setting} {s : List Char} (h : Document settings s)
    (once : (settings.map Setting.field).Nodup) :
    ∃ after, Spaces after ∧ readValue s = .ok (unsaid.overlaid settings, after) := by
  cases h with
  | @empty before inside after hbefore hinside hafter =>
    refine ⟨after, hafter, ?_⟩
    rw [readValue, Json.skipSpace_append hbefore, Json.skipSpace_cons rfl]
    simp only [readMembers, nextItem_closed '\x7d' hinside rfl]
    rfl
  | @members before after first rest said hbefore hafter spaced hsaid =>
    refine ⟨after, hafter, ?_⟩
    have hlength : rest.length < (first.text ++ behind rest after).length := by
      rw [List.length_append]
      exact Nat.lt_add_left _ (length_behind rest after)
    rw [readValue, Json.skipSpace_append hbefore, Json.skipSpace_cons rfl, List.map_cons,
      commas_cons, List.append_assoc]
    exact readMembers_first hsaid spaced once unsaid hlength after

/-- What a text leaves of every field is what the default configuration has. -/
theorem unsaid_eq_default : unsaid = default :=
  rfl

/-- An object that gives no field twice is read as the default configuration with its values. -/
theorem parse_document {settings : List Setting} {text : String}
    (h : Document settings text.toList) (once : (settings.map Setting.field).Nodup) :
    parse text = .ok (default.overlaid settings) := by
  obtain ⟨after, hafter, hread⟩ := readValue_document h once
  rw [parse, hread, unsaid_eq_default]
  simp only [finish_spaces hafter]

end BlockPurge.Config
