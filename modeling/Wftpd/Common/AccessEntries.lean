import Wftpd.Common.AddressTexts

/-! Access list entries as sets of addresses.

An entry is a wildcard, a network or a single address. The first two are matched as
what they mean, a single address by its text.
-/

set_option autoImplicit false

namespace Wftpd.Common
open Wftpd.Posix

section Sets

def Ipv4Addr.toBits (addr : Ipv4Addr) : Nat :=
  addr.octets.toList.foldl (fun bits octet => bits * 256 + octet.toNat) 0

def Ipv6Addr.toBits (addr : Ipv6Addr) : Nat :=
  addr.segments.toList.foldl (fun bits segment => bits * 65536 + segment.toNat) 0

def sharesPrefix (width length first second : Nat) : Bool :=
  first / 2 ^ (width - length) = second / 2 ^ (width - length)

/-- How the network library reads a text: a base address and the length of its prefix. -/
structure NetworkTexts where
  v4 : Text → Option (Ipv4Addr × Nat)
  v6 : Text → Option (Ipv6Addr × Nat)

/-- What the library documents: a network has the addresses that share its prefix, and its text
has a slash before the length. -/
structure Networks.Reads (networks : Networks) (texts : NetworkTexts) : Prop where
  v4 : ∀ text, networks.v4 text =
    (texts.v4 text).map fun net addr => sharesPrefix 32 net.2 net.1.toBits addr.toBits
  v6 : ∀ text, networks.v6 text =
    (texts.v6 text).map fun net addr => sharesPrefix 128 net.2 net.1.toBits addr.toBits
  slash4 : ∀ text net, texts.v4 text = some net → '/' ∈ text
  slash6 : ∀ text net, texts.v6 text = some net → '/' ∈ text

def validateIpOrCidr (networks : Networks) (input : Text) : Bool :=
  if input = "0.0.0.0/0".toList ∨ input = "::/0".toList then true
  else if (Ipv4Addr.parse input).isSome then true
  else if (Ipv6Addr.parse input).isSome then true
  else if (networks.v4 input).isSome then true
  else if (networks.v6 input).isSome then true
  else false

def Wildcard (entry : Text) : Prop := entry = "0.0.0.0/0".toList ∨ entry = "::/0".toList

/-- The address that an entry is, however it is written. -/
def IsAddress (entry : Text) : IpAddr → Prop
  | .v4 addr => Ipv4Addr.parse entry = some addr
  | .v6 addr => Ipv6Addr.parse entry = some addr

def InNetwork (texts : NetworkTexts) (entry : Text) : IpAddr → Prop
  | .v4 addr => ∃ net, texts.v4 entry = some net ∧ sharesPrefix 32 net.2 net.1.toBits addr.toBits = true
  | .v6 addr => ∃ net, texts.v6 entry = some net ∧ sharesPrefix 128 net.2 net.1.toBits addr.toBits = true

def addresses (texts : NetworkTexts) (entry : Text) : Set IpAddr :=
  {ip | Wildcard entry ∨ IsAddress entry ip ∨ InNetwork texts entry ip}

/-- The entry is no address in another writing than it is printed in. -/
def Canonical (entry : Text) : Prop := ∀ ip, IsAddress entry ip → entry = ip.toText

variable {networks : Networks} {texts : NetworkTexts} {entry : Text}

theorem isAddress_toText (ip : IpAddr) : IsAddress ip.toText ip := by
  cases ip with
  | v4 addr => exact addr.parse_toText
  | v6 addr => exact addr.parse_toText

theorem isAddress_of_toText {ip other : IpAddr} (same : IsAddress ip.toText other) : other = ip := by
  cases ip with
  | v4 addr =>
      cases other with
      | v4 other => rw [Option.some.inj (same.symm.trans addr.parse_toText)]
      | v6 other => cases same.symm.trans (Ipv6Addr.parse_ipv4 addr)
  | v6 addr =>
      cases other with
      | v4 other => cases same.symm.trans (Ipv4Addr.parse_ipv6 addr)
      | v6 other => rw [Option.some.inj (same.symm.trans addr.parse_toText)]

theorem no_slash_of_isAddress {ip : IpAddr} (isAddress : IsAddress entry ip) : '/' ∉ entry := by
  cases ip with
  | v4 addr => exact no_slash_of_parse (.inl ⟨addr, isAddress⟩)
  | v6 addr => exact no_slash_of_parse (.inr ⟨addr, isAddress⟩)

theorem canonical_of_slash (slash : '/' ∈ entry) : Canonical entry :=
  fun _ isAddress => absurd slash (no_slash_of_isAddress isAddress)

theorem Wildcard.slash (wildcard : Wildcard entry) : '/' ∈ entry := by
  rcases wildcard with rfl | rfl <;> decide

theorem canonical_toText (ip : IpAddr) : Canonical ip.toText := by
  intro other same
  rw [isAddress_of_toText same]

theorem toText_eq_iff {ip : IpAddr} : ip.toText = entry ↔ IsAddress entry ip ∧ Canonical entry := by
  constructor
  · rintro rfl
    exact ⟨isAddress_toText ip, canonical_toText ip⟩
  · rintro ⟨isAddress, canonical⟩
    exact (canonical ip isAddress).symm

theorem InNetwork.slash (reads : networks.Reads texts) {ip : IpAddr} (inside : InNetwork texts entry ip) :
    '/' ∈ entry := by
  cases ip with
  | v4 addr =>
      obtain ⟨net, read, -⟩ := inside
      exact reads.slash4 entry net read
  | v6 addr =>
      obtain ⟨net, read, -⟩ := inside
      exact reads.slash6 entry net read

theorem toText_ne (slash : '/' ∈ entry) (ip : IpAddr) : ip.toText ≠ entry := by
  rintro rfl
  exact no_slash_of_isAddress (isAddress_toText ip) slash

/-- The membership test of a network text is membership in its network. -/
theorem contains_iff_v4 (reads : networks.Reads texts) {contains : Ipv4Addr → Bool}
    (read : networks.v4 entry = some contains) (addr : Ipv4Addr) :
    contains addr = true ↔ IpAddr.toText (.v4 addr) = entry ∨ InNetwork texts entry (.v4 addr) := by
  rw [reads.v4, Option.map_eq_some_iff] at read
  obtain ⟨net, found, rfl⟩ := read
  rw [or_iff_right (toText_ne (reads.slash4 entry net found) _)]
  simp [InNetwork, found]

theorem contains_iff_v6 (reads : networks.Reads texts) {contains : Ipv6Addr → Bool}
    (read : networks.v6 entry = some contains) (addr : Ipv6Addr) :
    contains addr = true ↔ IpAddr.toText (.v6 addr) = entry ∨ InNetwork texts entry (.v6 addr) := by
  rw [reads.v6, Option.map_eq_some_iff] at read
  obtain ⟨net, found, rfl⟩ := read
  rw [or_iff_right (toText_ne (reads.slash6 entry net found) _)]
  simp [InNetwork, found]

theorem not_inNetwork_v4 (reads : networks.Reads texts) (unread : networks.v4 entry = none) (addr : Ipv4Addr) :
    ¬ InNetwork texts entry (.v4 addr) := by
  rw [reads.v4, Option.map_eq_none_iff] at unread
  simp [InNetwork, unread]

theorem not_inNetwork_v6 (reads : networks.Reads texts) (unread : networks.v6 entry = none) (addr : Ipv6Addr) :
    ¬ InNetwork texts entry (.v6 addr) := by
  rw [reads.v6, Option.map_eq_none_iff] at unread
  simp [InNetwork, unread]

theorem admitted_network (reads : networks.Reads texts)
    (read : (networks.v4 entry).isSome = true ∨ (networks.v6 entry).isSome = true) :
    (addresses texts entry).Nonempty := by
  rcases read with read | read
  · rw [reads.v4, Option.isSome_map] at read
    obtain ⟨net, found⟩ := Option.isSome_iff_exists.mp read
    exact ⟨.v4 net.1, .inr (.inr ⟨net, found, by simp [sharesPrefix]⟩)⟩
  · rw [reads.v6, Option.isSome_map] at read
    obtain ⟨net, found⟩ := Option.isSome_iff_exists.mp read
    exact ⟨.v6 net.1, .inr (.inr ⟨net, found, by simp [sharesPrefix]⟩)⟩

theorem validateIpOrCidr_iff (reads : networks.Reads texts) :
    validateIpOrCidr networks entry = true ↔ (addresses texts entry).Nonempty := by
  have admitted : validateIpOrCidr networks entry = true ↔ Wildcard entry ∨ (Ipv4Addr.parse entry).isSome = true ∨
      (Ipv6Addr.parse entry).isSome = true ∨ (networks.v4 entry).isSome = true ∨
      (networks.v6 entry).isSome = true := by
    simp only [validateIpOrCidr, Wildcard, Bool.if_true_left, Bool.if_false_right, Bool.and_true, Bool.or_eq_true,
      decide_eq_true_eq]
  rw [admitted]
  constructor
  · rintro (wildcard | parsed | parsed | read)
    · exact ⟨.v4 ⟨#v[0, 0, 0, 0]⟩, .inl wildcard⟩
    · obtain ⟨addr, same⟩ := Option.isSome_iff_exists.mp parsed
      exact ⟨.v4 addr, .inr (.inl same)⟩
    · obtain ⟨addr, same⟩ := Option.isSome_iff_exists.mp parsed
      exact ⟨.v6 addr, .inr (.inl same)⟩
    · exact admitted_network reads read
  · rintro ⟨ip, wildcard | isAddress | inside⟩
    · exact .inl wildcard
    · cases ip with
      | v4 addr => exact .inr (.inl (by rw [isAddress]; rfl))
      | v6 addr => exact .inr (.inr (.inl (by rw [isAddress]; rfl)))
    · cases ip with
      | v4 addr =>
          obtain ⟨net, found, -⟩ := inside
          exact .inr (.inr (.inr (.inl (by rw [reads.v4, found]; rfl))))
      | v6 addr =>
          obtain ⟨net, found, -⟩ := inside
          exact .inr (.inr (.inr (.inr (by rw [reads.v6, found]; rfl))))

/-- What decides when no wildcard does: the networks, and then the texts. -/
theorem ipMatchesCidr_of_not_wildcard (reads : networks.Reads texts) (narrow : ¬ Wildcard entry) {ip : IpAddr} :
    ipMatchesCidr networks ip.toText entry = true ↔ ip.toText = entry ∨ InNetwork texts entry ip := by
  unfold ipMatchesCidr
  split
  · next wildcard => exact absurd wildcard narrow
  cases ip with
  | v4 addr =>
      rw [show Ipv4Addr.parse (IpAddr.v4 addr).toText = some addr from addr.parse_toText,
        show Ipv6Addr.parse (IpAddr.v4 addr).toText = none from Ipv6Addr.parse_ipv4 addr]
      cases read : networks.v4 entry with
      | none =>
          rw [or_iff_left (not_inNetwork_v4 reads read addr)]
          exact decide_eq_true_iff
      | some contains => exact contains_iff_v4 reads read addr
  | v6 addr =>
      rw [show Ipv4Addr.parse (IpAddr.v6 addr).toText = none from Ipv4Addr.parse_ipv6 addr,
        show Ipv6Addr.parse (IpAddr.v6 addr).toText = some addr from addr.parse_toText]
      cases read : networks.v6 entry with
      | none =>
          rw [or_iff_left (not_inNetwork_v6 reads read addr)]
          exact decide_eq_true_iff
      | some contains => exact contains_iff_v6 reads read addr

/-- An entry matches the addresses it means, except that a single address in another writing matches
none. -/
theorem ipMatchesCidr_iff (reads : networks.Reads texts) {ip : IpAddr} :
    ipMatchesCidr networks ip.toText entry = true ↔ ip ∈ addresses texts entry ∧ Canonical entry := by
  by_cases wildcard : Wildcard entry
  · have matched : ipMatchesCidr networks ip.toText entry = true := if_pos wildcard
    exact ⟨fun _ => ⟨.inl wildcard, canonical_of_slash wildcard.slash⟩, fun _ => matched⟩
  · have member : ip ∈ addresses texts entry ↔ IsAddress entry ip ∨ InNetwork texts entry ip :=
      or_iff_right wildcard
    rw [ipMatchesCidr_of_not_wildcard reads wildcard, member, toText_eq_iff, or_and_right]
    exact or_congr_right ⟨fun inside => ⟨inside, canonical_of_slash (inside.slash reads)⟩, And.left⟩

end Sets

section Lists

def Listed (texts : NetworkTexts) (entries : List Text) (ip : IpAddr) : Prop :=
  ∃ entry ∈ entries, ip ∈ addresses texts entry

def ListedCanonically (texts : NetworkTexts) (entries : List Text) (ip : IpAddr) : Prop :=
  ∃ entry ∈ entries, ip ∈ addresses texts entry ∧ Canonical entry

variable {networks : Networks} {texts : NetworkTexts} {allowed denied : List Text} {ip : IpAddr}

theorem ListedCanonically.listed (listed : ListedCanonically texts denied ip) : Listed texts denied ip := by
  obtain ⟨entry, member, inside, -⟩ := listed
  exact ⟨entry, member, inside⟩

/-- The lists decide by the entries that are canonical. -/
theorem isIpAllowedFor_eq (reads : networks.Reads texts) :
    isIpAllowedFor networks allowed denied ip.toText = true ↔
      ¬ ListedCanonically texts denied ip ∧ (allowed = [] ∨ ListedCanonically texts allowed ip) := by
  rw [isIpAllowedFor_iff]
  simp only [ListedCanonically, ← ipMatchesCidr_iff reads, not_exists, not_and, Bool.not_eq_true]

/-- The lists decide by the addresses their entries mean, except where an address is denied only, or
allowed only, in another writing than it is printed in. -/
theorem isIpAllowedFor_listed_iff (reads : networks.Reads texts) (allowed denied : List Text) (ip : IpAddr) :
    (isIpAllowedFor networks allowed denied ip.toText = true ↔
        ¬ Listed texts denied ip ∧ (allowed = [] ∨ Listed texts allowed ip)) ↔
      (Listed texts denied ip → ¬ ListedCanonically texts denied ip →
          allowed ≠ [] ∧ ¬ ListedCanonically texts allowed ip) ∧
        (¬ Listed texts denied ip → Listed texts allowed ip → ListedCanonically texts allowed ip) := by
  have deniedListed : ListedCanonically texts denied ip → Listed texts denied ip := ListedCanonically.listed
  have allowedListed : ListedCanonically texts allowed ip → Listed texts allowed ip := ListedCanonically.listed
  have nonempty : Listed texts allowed ip → allowed ≠ [] := by
    rintro ⟨entry, member, -⟩
    exact List.ne_nil_of_mem member
  rw [isIpAllowedFor_eq reads]
  tauto

def privateNet : NetworkTexts where
  v4 text := if text = "10.0.0.0/8".toList then some (⟨#v[10, 0, 0, 0]⟩, 8) else none
  v6 _ := none

def privateNetworks : Networks where
  v4 text := (privateNet.v4 text).map fun net addr => sharesPrefix 32 net.2 net.1.toBits addr.toBits
  v6 _ := none

theorem privateNet_reads : privateNetworks.Reads privateNet where
  v4 _ := rfl
  v6 _ := rfl
  slash4 text net read := by
    simp only [privateNet, Option.ite_none_right_eq_some] at read
    rw [read.1]
    decide
  slash6 text net read := by cases read

/-- A network with one address of it denied. -/
theorem isIpAllowedFor_listed_iff_private :
    isIpAllowedFor privateNetworks ["10.0.0.0/8".toList] ["10.0.0.1".toList]
        (IpAddr.v4 ⟨#v[10, 0, 0, 2]⟩).toText = true ↔
      ¬ Listed privateNet ["10.0.0.1".toList] (.v4 ⟨#v[10, 0, 0, 2]⟩) ∧
        (["10.0.0.0/8".toList] = [] ∨ Listed privateNet ["10.0.0.0/8".toList] (.v4 ⟨#v[10, 0, 0, 2]⟩)) := by
  refine (isIpAllowedFor_listed_iff privateNet_reads _ _ _).mpr ⟨?_, ?_⟩
  · rintro ⟨entry, member, inside⟩ uncanonical
    rw [List.mem_singleton] at member
    subst member
    exact absurd ⟨_, List.mem_singleton.mpr rfl, inside,
      canonical_toText (.v4 ⟨#v[10, 0, 0, 1]⟩)⟩ uncanonical
  · rintro - ⟨entry, member, inside⟩
    rw [List.mem_singleton] at member
    subst member
    exact ⟨_, List.mem_singleton.mpr rfl, inside, canonical_of_slash (by decide)⟩

/-- A denied address gets in when its entry is written in capitals. -/
theorem capital_entry_misses : ¬ ∀ (networks : Networks) (texts : NetworkTexts), networks.Reads texts →
    ∀ (allowed denied : List Text), (∀ entry ∈ allowed ++ denied, validateIpOrCidr networks entry = true) →
    ∀ ip : IpAddr, isIpAllowedFor networks allowed denied ip.toText = true ↔
      ¬ Listed texts denied ip ∧ (allowed = [] ∨ Listed texts allowed ip) := by
  intro law
  have parsed : Ipv6Addr.parse "2001:DB8::1".toList = some ⟨#v[0x2001, 0xdb8, 0, 0, 0, 0, 0, 1]⟩ := by decide +kernel
  have admitted : validateIpOrCidr privateNetworks "2001:DB8::1".toList = true := by decide +kernel
  have allowed : isIpAllowedFor privateNetworks [] ["2001:DB8::1".toList]
      (IpAddr.v6 ⟨#v[0x2001, 0xdb8, 0, 0, 0, 0, 0, 1]⟩).toText = true := by decide +kernel
  have all := law privateNetworks privateNet privateNet_reads [] ["2001:DB8::1".toList] (by simpa using admitted)
    (.v6 ⟨#v[0x2001, 0xdb8, 0, 0, 0, 0, 0, 1]⟩)
  exact (all.mp allowed).1 ⟨_, List.mem_singleton.mpr rfl, .inr (.inl parsed)⟩

end Lists

end Wftpd.Common
