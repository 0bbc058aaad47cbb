import Wftpd.Library.BigEndian
import Wftpd.Sftp.Protocol

/-! The body of a digest request: a length-prefixed path, an offset and a length. -/

set_option autoImplicit false

namespace Wftpd.Sftp
open Wftpd.Posix Wftpd.Common Wftpd.Library

section Fields

theorem readBe_eq (data : List UInt8) (pos width : Nat) :
    readBe data pos width =
      if pos + width ≤ data.length then some (ofBigEndian ((data.drop pos).take width)) else none := rfl

theorem readBe_append (front rest : List UInt8) (pos width : Nat) :
    readBe (front ++ rest) (front.length + pos) width = readBe rest pos width := by
  have bound : front.length + pos + width ≤ (front ++ rest).length ↔ pos + width ≤ rest.length := by
    rw [List.length_append]
    omega
  rw [readBe_eq, readBe_eq, List.drop_length_add_append]
  simp only [bound]

theorem readBe_bigEndian {width value : Nat} (fits : value < 256 ^ width) (rest : List UInt8) :
    readBe (bigEndian width value ++ rest) 0 width = some value := by
  have enough : 0 + width ≤ (bigEndian width value ++ rest).length := by simp
  have taken : (bigEndian width value ++ rest).take width = bigEndian width value := by
    rw [List.take_append_of_le_length (by simp), List.take_of_length_le (by simp)]
  rw [readBe_eq, if_pos enough, List.drop_zero, taken, ofBigEndian_bigEndian, Nat.mod_eq_of_lt fits]

theorem readBe_some {data : List UInt8} {pos width value : Nat} (found : readBe data pos width = some value) :
    value < 256 ^ width ∧ data.drop pos = bigEndian width value ++ data.drop (pos + width) := by
  rw [readBe_eq] at found
  split at found
  · next enough =>
      cases found
      have length : ((data.drop pos).take width).length = width := by
        rw [List.length_take, List.length_drop]
        omega
      have small := ofBigEndian_lt ((data.drop pos).take width)
      have spelled := bigEndian_ofBigEndian ((data.drop pos).take width)
      rw [length] at small spelled
      refine ⟨small, ?_⟩
      rw [spelled, ← List.drop_drop, List.take_append_drop]
  · cases found

theorem readBe_none_iff {data : List UInt8} {pos width : Nat} :
    readBe data pos width = none ↔ data.length < pos + width := by
  rw [readBe_eq]
  split <;> simp <;> omega

def pathField (path : Text) : List UInt8 := bigEndian 4 (encodeUtf8 path).length ++ encodeUtf8 path

@[simp] theorem length_pathField (path : Text) : (pathField path).length = 4 + (encodeUtf8 path).length := by
  simp [pathField]

def announced (data : List UInt8) : Nat := ofBigEndian (data.take 4)

/-- Why no path can be read: too little is there, or it is no text. -/
def Unreadable (data : List UInt8) : Prop :=
  data.length < 4 ∨ data.length < 4 + announced data ∨
    ∀ text, (data.drop 4).take (announced data) ≠ encodeUtf8 text

theorem readPath_append {path : Text} (short : (encodeUtf8 path).length < 2 ^ 32) (rest : List UInt8) :
    readPath (pathField path ++ rest) = some (path, (pathField path).length) := by
  have prefixed : readBe (pathField path ++ rest) 0 4 = some (encodeUtf8 path).length := by
    rw [pathField, List.append_assoc]
    exact readBe_bigEndian short _
  have enough : 4 + (encodeUtf8 path).length ≤ (pathField path ++ rest).length := by simp
  have taken : ((pathField path ++ rest).drop 4).take (encodeUtf8 path).length = encodeUtf8 path := by
    simp [pathField]
  rw [readPath, prefixed]
  simp only [bind, Option.bind, if_pos enough, taken, decodeUtf8_encodeUtf8, length_pathField]
  rfl

theorem readPath_some {data : List UInt8} {path : Text} {pos : Nat} (found : readPath data = some (path, pos)) :
    (encodeUtf8 path).length < 2 ^ 32 ∧ pos = (pathField path).length ∧ data = pathField path ++ data.drop pos := by
  rw [readPath] at found
  obtain ⟨pathLen, prefixed, found⟩ := Option.bind_eq_some_iff.mp found
  split at found
  · next enough =>
      obtain ⟨text, decoded, same⟩ := Option.bind_eq_some_iff.mp found
      cases same
      obtain ⟨small, front⟩ := readBe_some prefixed
      have encoded := decodeUtf8_some_iff.mp decoded
      have length : (encodeUtf8 path).length = pathLen := by
        rw [← encoded, List.length_take, List.length_drop]
        omega
      have whole : data = bigEndian 4 pathLen ++ (encodeUtf8 path ++ data.drop (4 + pathLen)) := by
        rw [← encoded, ← List.drop_drop, List.take_append_drop]
        exact front
      refine ⟨by omega, by rw [length_pathField, length], ?_⟩
      rw [pathField, length, List.append_assoc]
      exact whole
  · cases found

theorem readPath_none_iff {data : List UInt8} : readPath data = none ↔ Unreadable data := by
  rw [readPath, Unreadable, readBe_eq]
  by_cases prefixed : 4 ≤ data.length
  · have length : ofBigEndian (data.take 4) = announced data := rfl
    simp only [Nat.zero_add, prefixed, if_true, List.drop_zero, bind, Option.bind, length]
    by_cases enough : 4 + announced data ≤ data.length
    · rw [if_pos enough]
      cases decoded : decodeUtf8 ((data.drop 4).take (announced data)) with
      | none =>
          refine iff_of_true rfl (.inr (.inr fun text encoded => ?_))
          rw [decodeUtf8_some_iff.mpr encoded] at decoded
          cases decoded
      | some text =>
          have encoded := decodeUtf8_some_iff.mp decoded
          refine iff_of_false nofun ?_
          rintro (short | short | invalid)
          · omega
          · omega
          · exact invalid text encoded
    · rw [if_neg enough]
      exact iff_of_true rfl (.inr (.inl (by omega)))
  · simp only [Nat.zero_add, prefixed, if_false]
    exact iff_of_true rfl (.inl (by omega))

end Fields

section Indexed

def addUsize (left right : Nat) : Option Nat := if left + right < 2 ^ 64 then some (left + right) else none

def getRange (data : List UInt8) (start stop : Nat) : Option (List UInt8) :=
  if start ≤ stop ∧ stop ≤ data.length then some ((data.take stop).drop start) else none

def readUnsigned (data : List UInt8) (pos width : Nat) : Option (Option Nat) := do
  let stop ← addUsize pos width
  return (getRange data pos stop).map ofBigEndian

/-- `parse_digest_request` with the indices it computes; no answer where one does not fit. -/
def parseIndexed (data : List UInt8) : Option (Option (Text × Nat × Nat)) := do
  match ← readUnsigned data 0 4 with
  | none => return none
  | some pathLen =>
      let stop ← addUsize 4 pathLen
      match (getRange data 4 stop).bind decodeUtf8 with
      | none => return none
      | some path =>
          let pos ← addUsize 4 pathLen
          let offset := (← readUnsigned data pos 8).getD 0
          let pos ← addUsize pos 8
          let length := (← readUnsigned data pos 8).getD 0
          return some (path, offset, length)

theorem addUsize_fits {left right : Nat} (fits : left + right < 2 ^ 64) : addUsize left right = some (left + right) :=
  if_pos fits

theorem getRange_width (data : List UInt8) (pos width : Nat) :
    getRange data pos (pos + width) =
      if pos + width ≤ data.length then some ((data.drop pos).take width) else none := by
  have order : pos ≤ pos + width := Nat.le_add_right pos width
  simp only [getRange, order, true_and, List.drop_take, Nat.add_sub_cancel_left]

theorem readUnsigned_fits {data : List UInt8} {pos width : Nat} (fits : pos + width < 2 ^ 64) :
    readUnsigned data pos width = some (readBe data pos width) := by
  rw [readUnsigned, addUsize_fits fits, readBe_eq]
  simp only [bind, Option.bind, getRange_width]
  split <;> rfl

/-- A length of four bytes keeps every index far below the limit. -/
theorem parseIndexed_eq (data : List UInt8) : parseIndexed data = some (parseDigestRequest data) := by
  rw [parseIndexed, readUnsigned_fits (by decide), parseDigestRequest, readPath]
  cases prefixed : readBe data 0 4 with
  | none => rfl
  | some pathLen =>
      obtain ⟨small, -⟩ := readBe_some prefixed
      have fits : 4 + pathLen < 2 ^ 64 := by omega
      simp only [bind, Option.bind, addUsize_fits fits, getRange_width]
      by_cases enough : 4 + pathLen ≤ data.length
      · rw [if_pos enough, if_pos enough]
        cases decoded : decodeUtf8 ((data.drop 4).take pathLen) with
        | none =>
            simp only [decoded]
            rfl
        | some path =>
            have afterOffset : 4 + pathLen + 8 < 2 ^ 64 := by omega
            have afterLength : 4 + pathLen + 8 + 8 < 2 ^ 64 := by omega
            simp only [decoded, readUnsigned_fits afterOffset, addUsize_fits afterOffset, readUnsigned_fits afterLength]
            rfl
      · rw [if_neg enough, if_neg enough]
        rfl

end Indexed

section Requests

/-- A request for a path with as many of the numbers as it gives. -/
def digestRequest (path : Text) (numbers : List UInt64) : List UInt8 :=
  pathField path ++ numbers.flatMap fun number => bigEndian 8 number.toNat

theorem parseDigestRequest_append {path : Text} (short : (encodeUtf8 path).length < 2 ^ 32) (rest : List UInt8) :
    parseDigestRequest (pathField path ++ rest) = some (path, (readBe rest 0 8).getD 0, (readBe rest 8 8).getD 0) := by
  have first := readBe_append (pathField path) rest 0 8
  have second := readBe_append (pathField path) rest 8 8
  rw [Nat.add_zero] at first
  rw [parseDigestRequest, readPath_append short]
  simp only [bind, Option.bind, first, second]
  rfl

theorem parseDigestRequest_none_iff {data : List UInt8} : parseDigestRequest data = none ↔ Unreadable data := by
  rw [← readPath_none_iff, parseDigestRequest]
  cases readPath data with
  | none => exact iff_of_true rfl rfl
  | some found => exact iff_of_false nofun nofun

theorem parseDigestRequest_some {data : List UInt8} {path : Text} {offset length : Nat}
    (parsed : parseDigestRequest data = some (path, offset, length)) :
    ∃ rest, (encodeUtf8 path).length < 2 ^ 32 ∧ data = pathField path ++ rest ∧
      offset = (readBe rest 0 8).getD 0 ∧ length = (readBe rest 8 8).getD 0 := by
  obtain ⟨⟨text, pos⟩, found, same⟩ := Option.bind_eq_some_iff.mp parsed
  cases same
  obtain ⟨short, -, whole⟩ := readPath_some found
  have again := parseDigestRequest_append short (data.drop pos)
  rw [← whole, parsed, Option.some.injEq, Prod.mk.injEq, Prod.mk.injEq] at again
  exact ⟨data.drop pos, short, whole, again.2.1, again.2.2⟩

theorem readBe_uint64 (front rest : List UInt8) (number : UInt64) :
    readBe (front ++ (bigEndian 8 number.toNat ++ rest)) front.length 8 = some number.toNat := by
  have found := readBe_append front (bigEndian 8 number.toNat ++ rest) 0 8
  rwa [readBe_bigEndian number.toNat_lt] at found

/-- What is encoded is decoded, whatever follows; no index overflows, and only what holds no
readable path is rejected. -/
theorem parseDigestRequest_exact :
    (∀ (path : Text) (offset length : UInt64) (rest : List UInt8), (encodeUtf8 path).length < 2 ^ 32 →
      parseDigestRequest (digestRequest path [offset, length] ++ rest) = some (path, offset.toNat, length.toNat)) ∧
    ∀ data, parseIndexed data = some (parseDigestRequest data) ∧
      (parseDigestRequest data = none ↔ Unreadable data) := by
  refine ⟨?_, fun data => ⟨parseIndexed_eq data, parseDigestRequest_none_iff⟩⟩
  intro path offset length rest short
  have shape : digestRequest path [offset, length] ++ rest =
      pathField path ++ (bigEndian 8 offset.toNat ++ (bigEndian 8 length.toNat ++ rest)) := by
    simp [digestRequest]
  have first := readBe_uint64 [] (bigEndian 8 length.toNat ++ rest) offset
  have second := readBe_uint64 (bigEndian 8 offset.toNat) rest length
  rw [length_bigEndian] at second
  rw [List.nil_append, List.length_nil] at first
  rw [shape, parseDigestRequest_append short, first, second]
  rfl

theorem parseDigestRequest_exact_trailing :
    parseDigestRequest (digestRequest "a".toList [1, 2] ++ [0]) = some ("a".toList, 1, 2) :=
  parseDigestRequest_exact.1 "a".toList 1 2 [0] (by decide)

/-- The data are one whole encoding of a request, in which the length or both numbers may be left out. -/
def Complete (data : List UInt8) (path : Text) (offset length : Nat) : Prop :=
  (data = digestRequest path [] ∧ offset = 0 ∧ length = 0) ∨
    (∃ first : UInt64, data = digestRequest path [first] ∧ offset = first.toNat ∧ length = 0) ∨
      ∃ first second : UInt64, data = digestRequest path [first, second] ∧ offset = first.toNat ∧ length = second.toNat

/-- Whatever is accepted is a complete encoding. -/
def Strict (data : List UInt8) : Prop :=
  ∀ path offset length, parseDigestRequest data = some (path, offset, length) → Complete data path offset length

def followed (data : List UInt8) : Nat := data.length - (4 + announced data)

theorem announced_append {path : Text} (short : (encodeUtf8 path).length < 2 ^ 32) (rest : List UInt8) :
    announced (pathField path ++ rest) = (encodeUtf8 path).length := by
  have taken : (pathField path ++ rest).take 4 = bigEndian 4 (encodeUtf8 path).length := by
    rw [pathField, List.append_assoc, List.take_append_of_le_length (by simp), List.take_of_length_le (by simp)]
  have small : (encodeUtf8 path).length < 256 ^ 4 := short
  rw [announced, taken, ofBigEndian_bigEndian, Nat.mod_eq_of_lt small]

theorem followed_append {path : Text} (short : (encodeUtf8 path).length < 2 ^ 32) (rest : List UInt8) :
    followed (pathField path ++ rest) = rest.length := by
  rw [followed, announced_append short, List.length_append, length_pathField]
  omega

theorem length_digestRequest (path : Text) (numbers : List UInt64) :
    (digestRequest path numbers).length = 4 + (encodeUtf8 path).length + 8 * numbers.length := by
  rw [digestRequest, List.length_append, length_pathField, List.length_flatMap]
  simp [Nat.mul_comm]

theorem exists_uint64 {bytes : List UInt8} (length : bytes.length = 8) :
    ∃ number : UInt64, bytes = bigEndian 8 number.toNat := by
  have small := ofBigEndian_lt bytes
  have spelled := bigEndian_ofBigEndian bytes
  rw [length] at small spelled
  refine ⟨UInt64.ofNat (ofBigEndian bytes), ?_⟩
  rw [UInt64.toNat_ofNat_of_lt' small, spelled]

/-- An accepted request is complete exactly when zero, eight or sixteen bytes follow its path. -/
theorem complete_iff (path : Text) (rest : List UInt8) :
    Complete (pathField path ++ rest) path ((readBe rest 0 8).getD 0) ((readBe rest 8 8).getD 0) ↔
      rest.length = 0 ∨ rest.length = 8 ∨ rest.length = 16 := by
  constructor
  · have total : (pathField path ++ rest).length = 4 + (encodeUtf8 path).length + rest.length := by simp
    rintro (⟨whole, -⟩ | ⟨first, whole, -⟩ | ⟨first, second, whole, -⟩)
    all_goals
      rw [whole, length_digestRequest] at total
      simp only [List.length_nil, List.length_cons] at total
      omega
  · rintro (none | one | two)
    · rw [List.length_eq_zero_iff] at none
      subst rest
      exact .inl ⟨by simp [digestRequest], rfl, rfl⟩
    · obtain ⟨first, rfl⟩ := exists_uint64 one
      have absent : readBe (bigEndian 8 first.toNat) 8 8 = none := readBe_none_iff.mpr (by simp)
      have found := readBe_uint64 [] [] first
      rw [List.nil_append, List.append_nil, List.length_nil] at found
      exact .inr (.inl ⟨first, by simp [digestRequest], by rw [found]; rfl, by rw [absent]; rfl⟩)
    · obtain ⟨first, front⟩ := @exists_uint64 (rest.take 8) (by simp [two])
      obtain ⟨second, back⟩ := @exists_uint64 (rest.drop 8) (by simp [two])
      have parts : rest = bigEndian 8 first.toNat ++ bigEndian 8 second.toNat := by
        rw [← front, ← back, List.take_append_drop]
      have offset := readBe_uint64 [] (bigEndian 8 second.toNat) first
      have length := readBe_uint64 (bigEndian 8 first.toNat) [] second
      rw [List.nil_append, List.length_nil, ← parts] at offset
      rw [List.append_nil, length_bigEndian, ← parts] at length
      exact .inr (.inr ⟨first, second, by simp [digestRequest, parts], by rw [offset]; rfl, by rw [length]; rfl⟩)

/-- A request is read strictly exactly when it is rejected or ends after a whole number of its fields. -/
theorem parseDigestRequest_strict_iff (data : List UInt8) :
    Strict data ↔ Unreadable data ∨ followed data = 0 ∨ followed data = 8 ∨ followed data = 16 := by
  cases parsed : parseDigestRequest data with
  | none =>
      have unreadable := parseDigestRequest_none_iff.mp parsed
      refine iff_of_true ?_ (.inl unreadable)
      intro path offset length accepted
      rw [parsed] at accepted
      cases accepted
  | some found =>
      obtain ⟨path, offset, length⟩ := found
      obtain ⟨rest, short, rfl, rfl, rfl⟩ := parseDigestRequest_some parsed
      have readable : ¬ Unreadable (pathField path ++ rest) := by
        intro unreadable
        rw [parseDigestRequest_none_iff.mpr unreadable] at parsed
        cases parsed
      rw [or_iff_right readable, followed_append short, ← complete_iff path]
      constructor
      · intro strict
        exact strict path _ _ parsed
      · intro complete path' offset length again
        rw [parsed] at again
        cases again
        exact complete

/-- An offset cut down to seven bytes is taken for no offset at all. -/
theorem parseDigestRequest_truncated : ¬ ∀ data, Strict data := by
  intro strict
  have accepted : parseDigestRequest (pathField [] ++ [0, 0, 0, 0, 0, 0, 1]) = some ([], 0, 0) := by
    rw [parseDigestRequest_append (by decide)]
    rfl
  have complete := strict _ [] 0 0 accepted
  have total : (pathField [] ++ [0, 0, 0, 0, 0, 0, (1 : UInt8)]).length = 11 := by decide
  rcases complete with ⟨whole, -⟩ | ⟨first, whole, -⟩ | ⟨first, second, whole, -⟩
  all_goals
    rw [whole, length_digestRequest] at total
    simp [encodeUtf8] at total

end Requests

end Wftpd.Sftp
