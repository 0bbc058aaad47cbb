import Wftpd.Common.Digits

/-! The texts of internet addresses.

What is printed for an address is read back as that address, and as no address of
the other family. What is read as an address is made of digits and the separators of
addresses.
-/

set_option autoImplicit false

namespace Wftpd.Common
open Wftpd.Posix

section Numbers
variable {radix maxDigits bound : Nat} {allowZeroPrefix : Bool}

def Stops (radix : Nat) (text : Text) : Prop := ∀ c, text.head? = some c → radix ≤ digitValue c

theorem stops_nil : Stops radix [] := fun c none => by cases none

theorem stops_cons {c : Char} {text : Text} (noDigit : radix ≤ digitValue c) : Stops radix (c :: text) := by
  intro other first
  cases first
  exact noDigit

theorem mem_toDigits (base : 1 < radix) {n : Nat} {c : Char} (member : c ∈ Nat.toDigits radix n) :
    ∃ digit < radix, c = digit.digitChar := by
  induction n using Nat.base_induction radix base with
  | single digit below =>
      rw [Nat.toDigits_of_lt_base below] at member
      exact ⟨digit, below, List.mem_singleton.mp member⟩
  | digit before last below positive ih =>
      rw [← Nat.toDigits_append_toDigits base positive below, List.mem_append, Nat.toDigits_of_lt_base below] at member
      rcases member with earlier | here
      · exact ih earlier
      · exact ⟨last, below, List.mem_singleton.mp here⟩

theorem digitValue_of_mem_toDigits (base : 1 < radix) (small : radix ≤ 16) {n : Nat} {c : Char}
    (member : c ∈ Nat.toDigits radix n) : digitValue c < radix := by
  obtain ⟨digit, below, rfl⟩ := mem_toDigits base member
  rwa [digitValue_digitChar (Nat.lt_of_lt_of_le below small)]

theorem startsWith_append {mark : Char} {first rest : Text} (nonempty : first ≠ []) :
    startsWith mark (first ++ rest) = startsWith mark first := by
  cases first with
  | nil => exact absurd rfl nonempty
  | cons c first => rfl

theorem toDigits_no_leading_zero (base : 1 < radix) {n : Nat} (positive : 0 < n) :
    startsWith '0' (Nat.toDigits radix n) = false := by
  induction n using Nat.base_induction radix base with
  | single digit below =>
      rw [Nat.toDigits_of_lt_base below]
      simp [startsWith]
      omega
  | digit before last below nonzero ih =>
      rw [← Nat.toDigits_append_toDigits base nonzero below, startsWith_append Nat.toDigits_ne_nil]
      exact ih nonzero

theorem takeWhile_digits {digits rest : Text} (all : ∀ c ∈ digits, digitValue c < radix) (stops : Stops radix rest) :
    (digits ++ rest).takeWhile (fun c => digitValue c < radix) = digits := by
  rw [List.takeWhile_append_of_pos (by simpa using all)]
  cases rest with
  | nil => simp
  | cons c rest =>
      have high := stops c rfl
      simp [Nat.not_lt_of_le high]

theorem readNumber_toDigits (base : 1 < radix) (small : radix ≤ 16) {n : Nat} (short : n < radix ^ maxDigits)
    (digits : 0 < maxDigits) (below : n < bound) {rest : Text} (stops : Stops radix rest) :
    readNumber radix maxDigits bound allowZeroPrefix (Nat.toDigits radix n ++ rest) = some (n, rest) := by
  have all : ∀ c ∈ Nat.toDigits radix n, digitValue c < radix := fun c => digitValue_of_mem_toDigits base small
  have taken := takeWhile_digits all stops
  have length := (Nat.length_toDigits_le_iff base digits).mpr short
  have noZero : ¬ (startsWith '0' (Nat.toDigits radix n) = true ∧ 1 < (Nat.toDigits radix n).length) := by
    rintro ⟨zero, long⟩
    by_cases positive : 0 < n
    · rw [toDigits_no_leading_zero base positive] at zero
      cases zero
    · have single : n = 0 := Nat.eq_zero_of_not_pos positive
      subst n
      rw [Nat.toDigits_zero] at long
      exact absurd long (by decide)
  unfold readNumber
  simp only [taken, foldl_toDigits base small]
  rw [if_neg, if_neg, List.drop_left]
  · rintro ⟨-, prefixed⟩
    exact noZero prefixed
  · rintro (empty | long | large)
    · exact Nat.toDigits_ne_nil empty
    · omega
    · omega

theorem readNumber_ok {text rest : Text} {value : Nat}
    (read : readNumber radix maxDigits bound allowZeroPrefix text = some (value, rest)) :
    ∃ digits, text = digits ++ rest ∧ ∀ c ∈ digits, digitValue c < radix := by
  unfold readNumber at read
  simp only at read
  split at read
  · cases read
  split at read
  · cases read
  · obtain ⟨-, rfl⟩ := Prod.mk.inj (Option.some.inj read)
    refine ⟨_, List.prefix_append_drop (List.takeWhile_prefix _), fun c member => ?_⟩
    simpa only [decide_eq_true_eq] using List.mem_takeWhile_imp member

theorem readNumber_stops {text : Text} (stops : Stops radix text) :
    readNumber radix maxDigits bound allowZeroPrefix text = none := by
  have none : ∀ c ∈ ([] : Text), digitValue c < radix := fun c member => by cases member
  have taken := takeWhile_digits none stops
  rw [List.nil_append] at taken
  unfold readNumber
  simp [taken]

theorem readChar_ok {expected : Char} {text rest : Text} (read : readChar expected text = some rest) :
    text = expected :: rest := by
  cases text with
  | nil => cases read
  | cons c text =>
      rw [readChar, Option.ite_none_right_eq_some] at read
      rw [read.1, Option.some.inj read.2]

end Numbers

section Ipv4

def octetText (octet : UInt8) : Text := Nat.toDigits 10 octet.toNat

theorem Ipv4Addr.toText_eq (addr : Ipv4Addr) : ∃ a b c d, addr = ⟨#v[a, b, c, d]⟩ ∧
    addr.toText = octetText a ++ '.' :: (octetText b ++ '.' :: (octetText c ++ '.' :: octetText d)) := by
  have whole : (#v[addr.octets[0], addr.octets[1], addr.octets[2], addr.octets[3]] : Vector UInt8 4) = addr.octets := by
    ext place inside
    interval_cases place <;> rfl
  have octets : addr.octets.toList = [addr.octets[0], addr.octets[1], addr.octets[2], addr.octets[3]] := by
    apply List.ext_getElem
    · simp
    · intro place inside _
      rw [Vector.length_toList] at inside
      interval_cases place <;> simp
  refine ⟨addr.octets[0], addr.octets[1], addr.octets[2], addr.octets[3], by rw [whole], ?_⟩
  rw [Ipv4Addr.toText, octets]
  simp [List.intercalate, octetText]

theorem readNumber_octet (octet : UInt8) {rest : Text} (stops : Stops 10 rest) :
    readNumber 10 3 256 false (octetText octet ++ rest) = some (octet.toNat, rest) := by
  have below : octet.toNat < 256 := octet.toNat_lt
  exact readNumber_toDigits (by decide) (by decide) (Nat.lt_of_lt_of_le below (by decide)) (by decide) below stops

theorem readIpv4_toText (addr : Ipv4Addr) {rest : Text} (stops : Stops 10 rest) :
    readIpv4 (addr.toText ++ rest) = some (addr, rest) := by
  have dot : ∀ text, Stops 10 ('.' :: text) := fun text => stops_cons (by decide)
  obtain ⟨a, b, c, d, rfl, text⟩ := addr.toText_eq
  rw [text]
  simp only [List.append_assoc, List.cons_append, readIpv4, readNumber_octet _ (dot _), readNumber_octet _ stops,
    readChar, if_true, Option.bind_eq_bind, Option.bind_some, UInt8.ofNat_toNat, Option.pure_def]

theorem readIpv4_ok {text rest : Text} {addr : Ipv4Addr} (read : readIpv4 text = some (addr, rest)) :
    ∃ used, text = used ++ rest ∧ '.' ∈ used ∧ ∀ c ∈ used, digitValue c < 10 ∨ c = '.' := by
  simp only [readIpv4, Option.bind_eq_bind, Option.bind_eq_some_iff, Prod.exists, Option.pure_def] at read
  obtain ⟨a, restA, readA, dotA, isDotA, b, restB, readB, dotB, isDotB, c, restC, readC, dotC, isDotC, d, restD, readD,
    same⟩ := read
  obtain ⟨digitsA, rfl, allA⟩ := readNumber_ok readA
  obtain ⟨digitsB, rfl, allB⟩ := readNumber_ok readB
  obtain ⟨digitsC, rfl, allC⟩ := readNumber_ok readC
  obtain ⟨digitsD, rfl, allD⟩ := readNumber_ok readD
  cases readChar_ok isDotA
  cases readChar_ok isDotB
  cases readChar_ok isDotC
  cases same
  refine ⟨digitsA ++ '.' :: (digitsB ++ '.' :: (digitsC ++ '.' :: digitsD)), by simp, by simp, fun char member => ?_⟩
  simp only [List.mem_append, List.mem_cons] at member
  rcases member with inA | dot | inB | dot | inC | dot | inD
  · exact .inl (allA char inA)
  · exact .inr dot
  · exact .inl (allB char inB)
  · exact .inr dot
  · exact .inl (allC char inC)
  · exact .inr dot
  · exact .inl (allD char inD)

theorem readIpv4_no_dot {text : Text} (plain : '.' ∉ text) : readIpv4 text = none := by
  cases read : readIpv4 text with
  | none => rfl
  | some found =>
      obtain ⟨used, rfl, dot, -⟩ := readIpv4_ok read
      exact absurd (List.mem_append_left _ dot) plain

theorem utf8Length_octetText (octet : UInt8) : utf8Length (octetText octet) ≤ 3 := by
  have ascii : ∀ c ∈ octetText octet, c.utf8Size = 1 := by
    intro c member
    obtain ⟨digit, below, rfl⟩ := mem_toDigits (by decide) member
    clear member
    revert digit
    decide
  have below : octet.toNat < 10 ^ 3 := Nat.lt_of_lt_of_le octet.toNat_lt (by decide)
  rw [utf8Length_ascii ascii]
  exact (Nat.length_toDigits_le_iff (by decide) (by decide)).mpr below

theorem Ipv4Addr.parse_toText (addr : Ipv4Addr) : parse addr.toText = some addr := by
  have short : utf8Length addr.toText ≤ 15 := by
    obtain ⟨a, b, c, d, -, text⟩ := addr.toText_eq
    have first := utf8Length_octetText a
    have second := utf8Length_octetText b
    have third := utf8Length_octetText c
    have fourth := utf8Length_octetText d
    have dot : ('.').utf8Size = 1 := rfl
    simp only [text, utf8Length_append, utf8Length_cons, dot]
    omega
  have read := readIpv4_toText addr stops_nil
  rw [List.append_nil] at read
  rw [parse, if_neg (Nat.not_lt_of_le short), read]

theorem Ipv4Addr.of_parse {text : Text} {addr : Ipv4Addr} (parsed : parse text = some addr) :
    ∀ c ∈ text, digitValue c < 10 ∨ c = '.' := by
  unfold parse at parsed
  split at parsed
  · cases parsed
  split at parsed
  · next other read =>
      obtain ⟨used, rfl, -, all⟩ := readIpv4_ok read
      rwa [List.append_nil]
  · cases parsed

theorem readIpv4_stops {text : Text} (stops : Stops 10 text) : readIpv4 text = none := by
  simp [readIpv4, readNumber_stops stops]

end Ipv4

section Ipv6

def hexText (segment : UInt16) : Text := Nat.toDigits 16 segment.toNat

def colonText (segments : List UInt16) : Text := segments.flatMap fun segment => ':' :: hexText segment

theorem segmentsText_cons (segment : UInt16) (rest : List UInt16) :
    segmentsText (segment :: rest) = hexText segment ++ colonText rest := by
  induction rest generalizing segment with
  | nil => simp [segmentsText, colonText, hexText, List.intercalate]
  | cons next rest ih =>
      have tail := ih next
      simp only [segmentsText, List.map_cons, List.intercalate, List.intersperse_cons_cons, List.flatten_cons] at tail ⊢
      rw [tail]
      simp [colonText, hexText]

theorem no_dot_hexText (segment : UInt16) : '.' ∉ hexText segment := by
  intro member
  have digit := digitValue_of_mem_toDigits (by decide) (by decide) member
  exact absurd digit (by decide)

theorem no_dot_colonText (segments : List UInt16) : '.' ∉ colonText segments := by
  intro member
  obtain ⟨segment, -, inside⟩ := List.mem_flatMap.mp member
  rcases List.mem_cons.mp inside with colon | inside
  · exact absurd colon (by decide)
  · exact no_dot_hexText segment inside

theorem readNumber_segment (segment : UInt16) {rest : Text} (stops : Stops 16 rest) :
    readNumber 16 4 65536 true (hexText segment ++ rest) = some (segment.toNat, rest) := by
  have below : segment.toNat < 65536 := segment.toNat_lt
  exact readNumber_toDigits (by decide) (by decide) below (by decide) below stops

/-- Where no segment goes on: at the end, or at the gap. -/
def Ends (rest : Text) : Prop := rest = [] ∨ ∃ text, rest = ':' :: ':' :: text

theorem Ends.stops {rest : Text} (ends : Ends rest) : Stops 16 rest := by
  rcases ends with rfl | ⟨text, rfl⟩
  · exact stops_nil
  · exact stops_cons (by decide)

theorem readSegments_step {more : Nat} {first : Bool} {text tail : Text} {segment : UInt16}
    (separated : (if first then some text else readChar ':' text) = some (hexText segment ++ tail))
    (noIpv4 : readIpv4 (hexText segment ++ tail) = none) (stops : Stops 16 tail) :
    readSegments (more + 1) first text = (segment :: (readSegments more false tail).1, (readSegments more false tail).2) := by
  rw [readSegments, separated]
  simp only [Option.bind_some, noIpv4, ite_self, readNumber_segment segment stops, UInt16.ofNat_toNat]

theorem Stops.mono {radix smaller : Nat} {text : Text} (stops : Stops radix text) (le : smaller ≤ radix) :
    Stops smaller text := fun c first => Nat.le_trans le (stops c first)

theorem readSegments_stop {more : Nat} {first : Bool} {text : Text}
    (nothing : ∀ tail, (if first then some text else readChar ':' text) = some tail → Stops 16 tail) :
    readSegments more first text = ([], false, text) := by
  cases more with
  | zero => rfl
  | succ more =>
      rw [readSegments]
      cases separated : (if first then some text else readChar ':' text) with
      | none => simp
      | some tail =>
          have stops := nothing tail separated
          simp [readIpv4_stops (stops.mono (by decide)), readNumber_stops stops]

theorem Ends.nothing {rest : Text} (ends : Ends rest) {tail : Text} (separated : readChar ':' rest = some tail) :
    Stops 16 tail := by
  rcases ends with rfl | ⟨text, rfl⟩
  · cases separated
  · cases readChar_ok separated
    exact stops_cons (by decide)

theorem readIpv4_segments {segment : UInt16} {segments : List UInt16} {rest : Text} (plain : '.' ∉ rest) :
    readIpv4 (hexText segment ++ (colonText segments ++ rest)) = none := by
  apply readIpv4_no_dot
  rw [List.mem_append, List.mem_append, not_or, not_or]
  exact ⟨no_dot_hexText segment, no_dot_colonText segments, plain⟩

theorem stops_colonText (segments : List UInt16) {rest : Text} (ends : Ends rest) :
    Stops 16 (colonText segments ++ rest) := by
  cases segments with
  | nil => exact ends.stops
  | cons next others => exact stops_cons (by decide)

theorem readSegments_colonText {segments : List UInt16} {more : Nat} {rest : Text} (fits : segments.length ≤ more)
    (plain : '.' ∉ rest) (ends : Ends rest) :
    readSegments more false (colonText segments ++ rest) = (segments, false, rest) := by
  induction segments generalizing more with
  | nil => exact readSegments_stop fun tail => ends.nothing
  | cons segment segments ih =>
      obtain ⟨less, rfl⟩ : ∃ less, more = less + 1 := ⟨more - 1, by simp at fits; omega⟩
      have shape : colonText (segment :: segments) ++ rest = ':' :: (hexText segment ++ (colonText segments ++ rest)) := by
        simp [colonText]
      rw [shape, readSegments_step rfl (readIpv4_segments plain) (stops_colonText segments ends),
        ih (by simpa using fits)]

theorem readSegments_segmentsText {segments : List UInt16} {more : Nat} {rest : Text} (fits : segments.length ≤ more)
    (plain : '.' ∉ rest) (ends : Ends rest) :
    readSegments more true (segmentsText segments ++ rest) = (segments, false, rest) := by
  cases segments with
  | nil =>
      apply readSegments_stop
      intro tail separated
      cases separated
      exact ends.stops
  | cons segment segments =>
      obtain ⟨less, rfl⟩ : ∃ less, more = less + 1 := ⟨more - 1, by simp at fits; omega⟩
      rw [segmentsText_cons, List.append_assoc,
        readSegments_step rfl (readIpv4_segments plain) (stops_colonText segments ends),
        readSegments_colonText (by simpa using fits) plain ends]

theorem foldl_choose_mem {α : Type} (better : α → α → Prop) [∀ first second, Decidable (better first second)]
    (items : List α) (best : α) :
    items.foldl (fun best item => if better best item then item else best) best ∈ best :: items := by
  induction items generalizing best with
  | nil => exact List.mem_cons_self
  | cons item items ih =>
      rw [List.foldl_cons]
      rcases List.mem_cons.mp (ih (if better best item then item else best)) with chosen | later
      · rw [chosen]
        split
        · exact List.mem_cons_of_mem _ List.mem_cons_self
        · exact List.mem_cons_self
      · exact List.mem_cons_of_mem _ (List.mem_cons_of_mem _ later)

theorem longestZeros_spec {segments : List UInt16} {start length : Nat} (found : longestZeros segments = (start, length))
    (nonempty : 0 < length) : start + length ≤ segments.length ∧
      segments = segments.take start ++ List.replicate length 0 ++ segments.drop (start + length) := by
  have chosen := foldl_choose_mem (fun longest run : Nat × Nat => longest.2 < run.2)
    ((List.range segments.length).map fun start => (start, ((segments.drop start).takeWhile (· = 0)).length)) (0, 0)
  rw [longestZeros] at found
  rw [found] at chosen
  rcases List.mem_cons.mp chosen with initial | listed
  · cases initial
    exact absurd nonempty (by decide)
  · obtain ⟨place, inside, same⟩ := List.mem_map.mp listed
    cases same
    have zeros : (segments.drop start).takeWhile (· = 0) =
        List.replicate ((segments.drop start).takeWhile (· = 0)).length 0 := by
      apply List.eq_replicate_iff.mpr
      exact ⟨rfl, fun segment member => by simpa using List.mem_takeWhile_imp member⟩
    have whole := List.prefix_append_drop (List.takeWhile_prefix (fun segment : UInt16 => decide (segment = 0))
      (l := segments.drop start))
    have bound := (List.takeWhile_prefix (fun segment : UInt16 => decide (segment = 0))
      (l := segments.drop start)).length_le
    rw [List.length_drop] at bound
    constructor
    · have := List.mem_range.mp inside
      omega
    · rw [List.drop_drop] at whole
      rw [← zeros, List.append_assoc, ← whole, List.take_append_drop]

theorem Ipv6Addr.ofFn_getD (addr : Ipv6Addr) :
    (⟨.ofFn fun i : Fin 8 => addr.segments.toList.getD i 0⟩ : Ipv6Addr) = addr := by
  have same : (Vector.ofFn fun i : Fin 8 => addr.segments.toList.getD i 0) = addr.segments := by
    ext place inside
    simp [List.getD]
  rw [same]

theorem readIpv6_full (addr : Ipv6Addr) : readIpv6 (segmentsText addr.segments.toList) = some (addr, []) := by
  have eight : addr.segments.toList.length = 8 := addr.segments.length_toList
  have read := @readSegments_segmentsText addr.segments.toList 8 [] (Nat.le_of_eq eight) (by simp) (.inl rfl)
  rw [List.append_nil] at read
  rw [readIpv6, read]
  simp only
  rw [if_pos eight, Ipv6Addr.ofFn_getD]

theorem readIpv6_gap {addr : Ipv6Addr} {front back : List UInt16} {gap : Nat} (positive : 0 < gap)
    (shape : addr.segments.toList = front ++ List.replicate gap 0 ++ back) :
    readIpv6 (segmentsText front ++ "::".toList ++ segmentsText back) = some (addr, []) := by
  have eight : front.length + gap + back.length = 8 := by
    have length := congrArg List.length shape
    simp at length
    omega
  have noDot : '.' ∉ segmentsText back := by
    cases back with
    | nil => simp [segmentsText]
    | cons segment rest =>
        rw [segmentsText_cons, List.mem_append, not_or]
        exact ⟨no_dot_hexText segment, no_dot_colonText rest⟩
  have readFront := @readSegments_segmentsText front 8 ("::".toList ++ segmentsText back) (by omega)
    (by rw [List.mem_append, not_or]; exact ⟨by decide, noDot⟩) (.inr ⟨_, rfl⟩)
  have readBack := @readSegments_segmentsText back (7 - front.length) [] (by omega) (by simp) (.inl rfl)
  rw [List.append_nil] at readBack
  have zeros : 8 - front.length - back.length = gap := by omega
  rw [readIpv6, List.append_assoc, readFront]
  simp only
  rw [if_neg (by omega), if_neg (by decide)]
  have one : readChar ':' ("::".toList ++ segmentsText back) = some (':' :: segmentsText back) := rfl
  have two : readChar ':' (':' :: segmentsText back) = some (segmentsText back) := rfl
  simp only [one, two, Option.bind_eq_bind, Option.bind_some, readBack, zeros, ← shape, Option.pure_def,
    Ipv6Addr.ofFn_getD]

theorem hexText_ffff : hexText 0xffff = "ffff".toList := by
  have number : (0xffff : UInt16).toNat = 65535 := rfl
  rw [hexText, number]
  simp [Nat.toDigits_of_base_le, Nat.toDigits_of_lt_base]

theorem readIpv6_mapped (addr : Ipv4Addr) : readIpv6 ("::ffff:".toList ++ addr.toText) =
    some (⟨.ofFn fun i => ([0, 0, 0, 0, 0, 0xffff] ++ embedIpv4 addr).getD i 0⟩, []) := by
  have nothing : readSegments 8 true ("::ffff:".toList ++ addr.toText) = ([], false, "::ffff:".toList ++ addr.toText) := by
    apply readSegments_stop
    intro tail separated
    cases separated
    exact stops_cons (by decide)
  have one : readChar ':' ("::ffff:".toList ++ addr.toText) = some (":ffff:".toList ++ addr.toText) := rfl
  have two : readChar ':' (":ffff:".toList ++ addr.toText) = some ("ffff:".toList ++ addr.toText) := rfl
  have embedded : readSegments 6 false (':' :: addr.toText) = (embedIpv4 addr, true, []) := by
    have read := readIpv4_toText addr stops_nil
    rw [List.append_nil] at read
    simp [readSegments, readChar, read]
  have last : readSegments 7 true ("ffff:".toList ++ addr.toText) = (0xffff :: embedIpv4 addr, true, []) := by
    have shape : "ffff:".toList ++ addr.toText = hexText 0xffff ++ ':' :: addr.toText := by
      rw [hexText_ffff]
      rfl
    have noIpv4 : readIpv4 (hexText 0xffff ++ ':' :: addr.toText) = none := by
      rw [hexText_ffff]
      exact readIpv4_stops (stops_cons (by decide))
    rw [shape, readSegments_step rfl noIpv4 (stops_cons (by decide)), embedded]
  rw [readIpv6, nothing]
  simp only
  rw [if_neg (by decide), if_neg (by decide)]
  simp only [one, two, Option.bind_eq_bind, Option.bind_some, List.length_nil, Nat.sub_zero, last]
  rfl

theorem fromBeBytes_split (segment : UInt16) : fromBeBytes (segment / 256).toUInt8 (segment % 256).toUInt8 = segment := by
  apply UInt16.toNat_inj.mp
  have bound := segment.toNat_lt
  simp [fromBeBytes]
  omega

theorem Ipv6Addr.readIpv6_toText (addr : Ipv6Addr) : readIpv6 addr.toText = some (addr, []) := by
  rw [toText]
  simp only
  split
  · next mapped =>
      have last : addr.segments.toList.drop 6 = [addr.segments[6], addr.segments[7]] := by
        apply List.ext_getElem
        · simp
        · intro place inside _
          simp at inside
          interval_cases place <;> simp
      have whole : ([0, 0, 0, 0, 0, 0xffff] : List UInt16) ++ [addr.segments[6], addr.segments[7]] = addr.segments.toList := by
        rw [← mapped, ← last, List.take_append_drop]
      have embedded : embedIpv4 ⟨#v[(addr.segments[6] / 256).toUInt8, (addr.segments[6] % 256).toUInt8,
          (addr.segments[7] / 256).toUInt8, (addr.segments[7] % 256).toUInt8]⟩ = [addr.segments[6], addr.segments[7]] :=
        congrArg₂ (fun first second => [first, second]) (fromBeBytes_split _) (fromBeBytes_split _)
      rw [readIpv6_mapped, embedded, whole, ofFn_getD]
  · cases found : longestZeros addr.segments.toList with
    | mk start length =>
        simp only
        split
        · next long =>
            obtain ⟨-, shape⟩ := longestZeros_spec found (by omega)
            exact readIpv6_gap (by omega) shape
        · exact readIpv6_full addr

theorem Ipv6Addr.parse_toText (addr : Ipv6Addr) : parse addr.toText = some addr := by
  rw [parse, readIpv6_toText]

theorem colon_mem_toText (addr : Ipv6Addr) : ':' ∈ addr.toText := by
  rw [Ipv6Addr.toText]
  simp only
  split
  · simp
  · cases longestZeros addr.segments.toList with
    | mk start length =>
        simp only
        split
        · simp
        · have eight : addr.segments.toList.length = 8 := addr.segments.length_toList
          match addr.segments.toList, eight with
          | first :: second :: rest, _ =>
              rw [segmentsText_cons]
              exact List.mem_append_right _ List.mem_cons_self

theorem Ipv4Addr.parse_ipv6 (addr : Ipv6Addr) : parse addr.toText = none := by
  cases parsed : parse addr.toText with
  | none => rfl
  | some other =>
      rcases of_parse parsed ':' (colon_mem_toText addr) with digit | dot
      · exact absurd digit (by decide)
      · exact absurd dot (by decide)

theorem Ipv6Addr.parse_ipv4 (addr : Ipv4Addr) : parse addr.toText = none := by
  have read := readIpv4_toText addr stops_nil
  rw [List.append_nil] at read
  have segments : readSegments 8 true addr.toText = (embedIpv4 addr, true, []) := by
    simp [readSegments, read]
  rw [parse, readIpv6, segments]
  simp [embedIpv4]

def AddressChar (c : Char) : Prop := digitValue c < 16 ∨ c = '.' ∨ c = ':'

def Consumes (text rest : Text) : Prop := ∃ used, text = used ++ rest ∧ ∀ c ∈ used, AddressChar c

theorem Consumes.refl (text : Text) : Consumes text text := ⟨[], rfl, fun c member => by cases member⟩

theorem Consumes.trans {text middle rest : Text} (first : Consumes text middle) (second : Consumes middle rest) :
    Consumes text rest := by
  obtain ⟨used, rfl, inUsed⟩ := first
  obtain ⟨more, rfl, inMore⟩ := second
  refine ⟨used ++ more, by simp, fun c member => ?_⟩
  exact (List.mem_append.mp member).elim (inUsed c) (inMore c)

theorem consumes_colon {text rest : Text} (read : readChar ':' text = some rest) : Consumes text rest := by
  rw [readChar_ok read]
  exact ⟨[':'], rfl, fun c member => .inr (.inr (List.mem_singleton.mp member))⟩

theorem consumes_ipv4 {text rest : Text} {addr : Ipv4Addr} (read : readIpv4 text = some (addr, rest)) :
    Consumes text rest := by
  obtain ⟨used, same, -, all⟩ := readIpv4_ok read
  refine ⟨used, same, fun c member => ?_⟩
  rcases all c member with digit | dot
  · exact .inl (Nat.lt_of_lt_of_le digit (by decide))
  · exact .inr (.inl dot)

theorem consumes_segments (more : Nat) (first : Bool) (text : Text) :
    Consumes text (readSegments more first text).2.2 := by
  induction more generalizing first text with
  | zero => exact .refl text
  | succ more ih =>
      have lead : ∀ tail, (if first then some text else readChar ':' text) = some tail → Consumes text tail := by
        intro tail separated
        split at separated
        · cases separated
          exact .refl text
        · exact consumes_colon separated
      rw [readSegments]
      cases separated : (if first then some text else readChar ':' text) with
      | none => simpa using .refl text
      | some tail =>
          have front := lead tail separated
          simp only [Option.bind_some]
          split
          · next addr rest read =>
              rw [Option.ite_none_left_eq_some] at read
              exact front.trans (consumes_ipv4 read.2)
          · split
            · exact .refl text
            · next segment rest read =>
                obtain ⟨digits, same, all⟩ := readNumber_ok read
                have here : Consumes tail rest := ⟨digits, same, fun c member => .inl (all c member)⟩
                exact front.trans (here.trans (ih false rest))

theorem consumes_ipv6 {text rest : Text} {addr : Ipv6Addr} (read : readIpv6 text = some (addr, rest)) :
    Consumes text rest := by
  have head := consumes_segments 8 true text
  cases segments : readSegments 8 true text with
  | mk front embeddedRest =>
      obtain ⟨embedded, middle⟩ := embeddedRest
      rw [segments] at head
      rw [readIpv6, segments] at read
      simp only at read head
      split at read
      · cases read
        exact head
      split at read
      · cases read
      · simp only [Option.bind_eq_bind, Option.bind_eq_some_iff] at read
        obtain ⟨afterOne, one, afterTwo, two, same⟩ := read
        have back := consumes_segments (7 - front.length) true afterTwo
        cases same
        exact ((head.trans (consumes_colon one)).trans (consumes_colon two)).trans back

theorem no_slash_of_parse {text : Text} (parsed : (∃ addr, Ipv4Addr.parse text = some addr) ∨
    ∃ addr, Ipv6Addr.parse text = some addr) : '/' ∉ text := by
  intro slash
  have none : ¬ AddressChar '/' := by
    rintro (digit | dot | colon)
    · exact absurd digit (by decide)
    · exact absurd dot (by decide)
    · exact absurd colon (by decide)
  rcases parsed with ⟨addr, parsed⟩ | ⟨addr, parsed⟩
  · rcases Ipv4Addr.of_parse parsed '/' slash with digit | dot
    · exact absurd digit (by decide)
    · exact absurd dot (by decide)
  · unfold Ipv6Addr.parse at parsed
    split at parsed
    · next other read =>
        obtain ⟨used, rfl, all⟩ := consumes_ipv6 read
        rw [List.append_nil] at slash
        exact none (all '/' slash)
    · cases parsed

end Ipv6

end Wftpd.Common
