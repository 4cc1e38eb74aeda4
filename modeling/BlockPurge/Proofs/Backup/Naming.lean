import BlockPurge.Backup
import BlockPurge.Proofs.Path.Segments
import BlockPurge.Proofs.Text.Hex

/-!
# The names of backups

A backup stands in the folder of its original. The stem of its name is that of the original and more
behind it, so it is not the name of the original, whatever that looks like. What comes behind has a
fixed length, so the stem of the original and the digits of the content are found again in the name.
-/
namespace BlockPurge.Backup

/-! ## Digits of a content -/

theorem length_littleEndian (count n : Nat) : (Digest.littleEndian count n).length = count := by
  induction count generalizing n with
  | zero => rfl
  | succ count ih => rw [Digest.littleEndian, List.length_cons, ih]

theorem length_md5 (content : Bytes) : (Digest.md5 content).length = 16 := by
  simp [Digest.md5, length_littleEndian]

/-- The digits that a content is told by: the first of those that its digest is written with. -/
structure Digits (content : Bytes) (digits : String) : Prop where
  digest : (Text.hexBytes (Digest.md5 content)).length = 32
  front : digits.toList = (Text.hexBytes (Digest.md5 content)).toList.take 8
  length : digits.length = 8
  small : ∀ c ∈ digits.toList, c ∈ Text.hexAlphabet

theorem contentDigest_digits (content : Bytes) : Digits content (contentDigest content) where
  digest := by rw [Text.length_hexBytes, length_md5]
  front := Text.toList_hexBytes_take _ 4
  length := by
    rw [contentDigest, Text.length_hexBytes, List.length_take, length_md5]
    rfl
  small _ := Text.mem_hexAlphabet_of_mem_hexBytes

/-! ## Names -/

/-- The name that a stem and digits make. -/
def spell (stem digits : String) : Name :=
  Text.encode (stem ++ "_" ++ digits ++ ".meta")

/-- A stem and digits are found again in their name, if it is known how many digits there are. -/
theorem spell_inj {s t d e : String} (hlength : d.length = e.length) (h : spell s d = spell t e) :
    s = t ∧ d = e := by
  have hlist := congrArg String.toList (Text.encode_inj.mp h)
  simp only [String.toList_append, List.append_assoc] at hlist
  have htail : ("_".toList ++ (d.toList ++ ".meta".toList)).length =
      ("_".toList ++ (e.toList ++ ".meta".toList)).length := by
    simp [String.length_toList, hlength]
  obtain ⟨hstem, hrest⟩ := List.append_inj' hlist htail
  have hdigits := List.append_cancel_right (List.append_cancel_left hrest)
  exact ⟨String.toList_inj.mp hstem, String.toList_inj.mp hdigits⟩

theorem isStem_spell (stem digits : String) :
    Path.IsStem (spell stem digits) (Text.encode (stem ++ "_" ++ digits)) := by
  have hmeta : Text.encode ".meta" = Path.dot :: Text.encode "meta" := rfl
  rw [spell, Text.encode_append, hmeta]
  exact .extended (by simp [Text.encode]) (by decide)

/-- No name is made from its own stem, since the name that is made has a longer one. -/
theorem spell_ne (name : Bytes) (digits : String) :
    spell (Text.decodeLossy (Path.stemOf name)) digits ≠ name := by
  intro h
  have hstem := (isStem_spell (Text.decodeLossy (Path.stemOf name)) digits).stemOf_eq
  rw [h] at hstem
  -- Read as a text, the stem that the name is made from would have itself and more in it.
  have htext := congrArg Text.decodeLossy hstem
  rw [Text.decodeLossy_encode] at htext
  have hlength := congrArg String.length htext
  simp only [String.length_append] at hlength
  have hmark : "_".length = 1 := rfl
  omega

theorem isName_spell {name : Bytes} (hname : Path.IsName name) {content : Bytes} :
    Path.IsName (spell (Text.decodeLossy (Path.stemOf name)) (contentDigest content)) := by
  apply Path.isName_of_length
  · intro h
    have hmem := Text.ofNat_mem_of_mem_encode (by decide) h
    simp only [String.toList_append, List.mem_append] at hmem
    rcases hmem with ((hmem | hmem) | hmem) | hmem
    · exact hname.slash_notMem_stem hmem
    · exact absurd hmem (by decide)
    · exact absurd ((contentDigest_digits content).small _ hmem) (by decide)
    · exact absurd hmem (by decide)
  · have hmeta : (Text.encode ".meta").length = 5 := rfl
    rw [spell, Text.encode_append, List.length_append, hmeta]
    omega

/-! ## Backups -/

theorem fileName_eq {path name : Bytes} (h : Path.fileName? path = some name) (content : Bytes) :
    fileName path content =
      spell (Text.decodeLossy (Path.stemOf name)) (contentDigest content) := by
  rw [fileName, Path.stem, h]
  rfl

/-- What the path of a backup says about its original, which has the given name. -/
structure Named (path content name : Bytes) : Prop where
  /-- The backup has its name in the folder of the original. -/
  beside : ∃ folder, Path.parent? path = some folder ∧
    Path.parent? (pathFor path content) = some folder ∧
    pathFor path content = Path.join folder (fileName path content) ∧
    Path.fileName? (pathFor path content) = some (fileName path content)
  spelled : ∃ stem, Path.IsStem name stem ∧
    fileName path content =
      Text.encode (Text.decodeLossy stem ++ "_" ++ contentDigest content ++ ".meta")
  digits : Digits content (contentDigest content)
  apart : fileName path content ≠ name
  /-- No other original with a stem that can be read, and no other digits, give the name. -/
  told {other otherName : Bytes} (otherContent : Bytes) (s t : String) :
    Path.fileName? other = some otherName →
    Path.IsStem name (Text.encode s) → Path.IsStem otherName (Text.encode t) →
    fileName path content = fileName other otherContent →
    s = t ∧ contentDigest content = contentDigest otherContent

/-- **A backup stands beside its original under another name**, which tells the stem of the original
and the digits of the content. -/
theorem pathFor_named {path name : Bytes} (h : Path.fileName? path = some name) (content : Bytes) :
    Named path content name where
  beside := by
    have hname : Path.IsName (fileName path content) := by
      rw [fileName_eq h]
      exact isName_spell (Path.isName_of_fileName? h)
    obtain ⟨folder, hfolder, hsame, hlast⟩ := Path.parent?_join h hname
    have hpath : pathFor path content = Path.join folder (fileName path content) := by
      rw [pathFor, hfolder]
    rw [← hpath] at hsame hlast
    exact ⟨folder, hfolder, hsame, hpath, hlast⟩
  spelled := ⟨Path.stemOf name, Path.isStem_iff.mpr rfl, fileName_eq h content⟩
  digits := contentDigest_digits content
  apart := by
    rw [fileName_eq h]
    exact spell_ne name _
  told := by
    intro other otherName otherContent s t hother hs ht hsame
    rw [fileName_eq h, fileName_eq hother, hs.stemOf_eq, ht.stemOf_eq,
      Text.decodeLossy_encode, Text.decodeLossy_encode] at hsame
    refine spell_inj ?_ hsame
    rw [(contentDigest_digits content).length, (contentDigest_digits otherContent).length]

/-- The backup of an empty file whose name is already that of a backup of an empty file. -/
theorem pathFor_named_again :
    let path := Text.encode "data/nvm_d41d8cd9.meta"
    let name := Text.encode "nvm_d41d8cd9.meta"
    Path.fileName? path = some name ∧ Named path [] name ∧
      pathFor path [] = Text.encode "data/nvm_d41d8cd9_d41d8cd9.meta" := by
  intro path name
  have hname : Path.fileName? path = some name := by decide
  exact ⟨hname, pathFor_named hname [], by decide +kernel⟩

end BlockPurge.Backup
