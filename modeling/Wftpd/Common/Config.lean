import Wftpd.Posix.Path

/-! The configuration, its access lists, and the texts of internet addresses
they are matched against. Networks are parsed by a library, a parameter here.
-/

set_option autoImplicit false

namespace Wftpd.Common
open Wftpd.Posix

structure Ipv4Addr where
  octets : Vector UInt8 4
  deriving DecidableEq

structure Ipv6Addr where
  segments : Vector UInt16 8
  deriving DecidableEq

inductive IpAddr where
  | v4 (addr : Ipv4Addr)
  | v6 (addr : Ipv6Addr)
  deriving DecidableEq

section Parse

def digitValue (c : Char) : Nat :=
  if c.isDigit then c.toNat - '0'.toNat
  else if 'a' ≤ c ∧ c ≤ 'f' then c.toNat - 'a'.toNat + 10
  else if 'A' ≤ c ∧ c ≤ 'F' then c.toNat - 'A'.toNat + 10
  else 16

def readChar (expected : Char) : Text → Option Text
  | c :: rest => if c = expected then some rest else none
  | [] => none

def readNumber (radix maxDigits bound : Nat) (allowZeroPrefix : Bool) (text : Text) : Option (Nat × Text) :=
  let digits := text.takeWhile fun c => digitValue c < radix
  let value := digits.foldl (fun sum c => sum * radix + digitValue c) 0
  if digits = [] ∨ maxDigits < digits.length ∨ bound ≤ value then none
  else if !allowZeroPrefix ∧ startsWith '0' digits ∧ 1 < digits.length then none
  else some (value, text.drop digits.length)

def readIpv4 (text : Text) : Option (Ipv4Addr × Text) := do
  let (a, text) ← readNumber 10 3 256 false text
  let (b, text) ← readNumber 10 3 256 false (← readChar '.' text)
  let (c, text) ← readNumber 10 3 256 false (← readChar '.' text)
  let (d, text) ← readNumber 10 3 256 false (← readChar '.' text)
  return (⟨#v[UInt8.ofNat a, UInt8.ofNat b, UInt8.ofNat c, UInt8.ofNat d]⟩, text)

def fromBeBytes (high low : UInt8) : UInt16 := high.toUInt16 * 256 + low.toUInt16

def embedIpv4 (addr : Ipv4Addr) : List UInt16 :=
  [fromBeBytes addr.octets[0] addr.octets[1], fromBeBytes addr.octets[2] addr.octets[3]]

/-- At most so many segments, each but the first after a colon. The last two may
be written as an IPv4 address, which ends the list. -/
def readSegments : Nat → Bool → Text → List UInt16 × Bool × Text
  | 0, _, text => ([], false, text)
  | more + 1, first, text =>
      let separated := if first then some text else readChar ':' text
      match if more = 0 then none else separated.bind readIpv4 with
      | some (addr, text) => (embedIpv4 addr, true, text)
      | none =>
          match separated.bind (readNumber 16 4 65536 true) with
          | none => ([], false, text)
          | some (segment, text) =>
              let (segments, embedded, text) := readSegments more false text
              (UInt16.ofNat segment :: segments, embedded, text)

def readIpv6 (text : Text) : Option (Ipv6Addr × Text) :=
  let (head, embedded, text) := readSegments 8 true text
  if head.length = 8 then some (⟨.ofFn fun i => head.getD i 0⟩, text)
  else if embedded then none
  else do
    let text ← readChar ':' (← readChar ':' text)
    let (tail, _, text) := readSegments (7 - head.length) true text
    let segments := head ++ List.replicate (8 - head.length - tail.length) 0 ++ tail
    return (⟨.ofFn fun i => segments.getD i 0⟩, text)

def Ipv4Addr.parse (text : Text) : Option Ipv4Addr :=
  if 15 < utf8Length text then none
  else match readIpv4 text with
    | some (addr, []) => some addr
    | _ => none

def Ipv6Addr.parse (text : Text) : Option Ipv6Addr :=
  match readIpv6 text with
  | some (addr, []) => some addr
  | _ => none

end Parse

section Display

def Ipv4Addr.toText (addr : Ipv4Addr) : Text :=
  List.intercalate ['.'] (addr.octets.toList.map fun octet => Nat.toDigits 10 octet.toNat)

def segmentsText (segments : List UInt16) : Text :=
  List.intercalate [':'] (segments.map fun segment => Nat.toDigits 16 segment.toNat)

/-- Start and length of the first longest run of zero segments. -/
def longestZeros (segments : List UInt16) : Nat × Nat :=
  let runs := (List.range segments.length).map fun start =>
    (start, ((segments.drop start).takeWhile (· = 0)).length)
  runs.foldl (fun longest run => if longest.2 < run.2 then run else longest) (0, 0)

def Ipv6Addr.toText (addr : Ipv6Addr) : Text :=
  let segments := addr.segments.toList
  if segments.take 6 = [0, 0, 0, 0, 0, 0xffff] then
    "::ffff:".toList ++ Ipv4Addr.toText ⟨#v[(addr.segments[6] / 256).toUInt8, (addr.segments[6] % 256).toUInt8,
      (addr.segments[7] / 256).toUInt8, (addr.segments[7] % 256).toUInt8]⟩
  else
    let (start, length) := longestZeros segments
    if 1 < length then
      segmentsText (segments.take start) ++ "::".toList ++ segmentsText (segments.drop (start + length))
    else segmentsText segments

def IpAddr.toText : IpAddr → Text
  | .v4 addr => addr.toText
  | .v6 addr => addr.toText

end Display

/-- The network library: a network text as its membership test, if it is one. -/
structure Networks where
  v4 : Text → Option (Ipv4Addr → Bool)
  v6 : Text → Option (Ipv6Addr → Bool)

def ipMatchesCidr (networks : Networks) (ip cidr : Text) : Bool :=
  if cidr = "0.0.0.0/0".toList ∨ cidr = "::/0".toList then true
  else match Ipv4Addr.parse ip, networks.v4 cidr with
    | some addr, some contains => contains addr
    | _, _ =>
        match Ipv6Addr.parse ip, networks.v6 cidr with
        | some addr, some contains => contains addr
        | _, _ => ip = cidr

structure FtpConfig where
  enabled : Bool
  bindIp : Text
  port : UInt16
  passivePorts : UInt16 × UInt16
  welcomeMessage : Text
  allowAnonymous : Bool
  anonymousHome : Option Text
  maxSpeedKbps : UInt64
  encoding : Text
  dataTimeout : UInt64
  masqueradeIp : Option Text
  deriving DecidableEq, Repr

structure SftpConfig where
  enabled : Bool
  bindIp : Text
  port : UInt16
  hostKeyPath : Text
  maxAuthAttempts : UInt32
  authTimeout : UInt64
  logLevel : Text
  deriving DecidableEq, Repr

structure SecurityConfig where
  allowedIps : List Text
  deniedIps : List Text
  maxLoginAttempts : UInt32
  banDuration : UInt64
  requireSsl : Bool
  certPath : Option Text
  keyPath : Option Text
  maxConnections : UInt64
  connectionTimeout : UInt64
  idleTimeout : UInt64
  deriving DecidableEq, Repr

structure LoggingConfig where
  logDir : Text
  logLevel : Text
  maxLogSize : UInt64
  maxLogFiles : UInt64
  enableJson : Bool
  enableGuiLogging : Bool
  deriving DecidableEq, Repr

structure Config where
  ftp : FtpConfig
  sftp : SftpConfig
  security : SecurityConfig
  logging : LoggingConfig
  deriving DecidableEq, Repr

inductive Service where
  | ftp
  | sftp
  deriving DecidableEq, Repr

def Config.enabled (config : Config) : Service → Bool
  | .ftp => config.ftp.enabled
  | .sftp => config.sftp.enabled

def Config.setEnabled (config : Config) (service : Service) (enabled : Bool) : Config :=
  match service with
  | .ftp => { config with ftp := { config.ftp with enabled := enabled } }
  | .sftp => { config with sftp := { config.sftp with enabled := enabled } }

/-- `Config::default`, with the paths it looks up. -/
def Config.default (hostKeyPath logDir : Text) : Config where
  ftp := {
    enabled := true
    bindIp := "0.0.0.0".toList
    port := 2121
    passivePorts := (50000, 51000)
    welcomeMessage := "Welcome to WFTPG FTP Server".toList
    allowAnonymous := false
    anonymousHome := none
    maxSpeedKbps := 0
    encoding := "UTF-8".toList
    dataTimeout := 300
    masqueradeIp := none }
  sftp := {
    enabled := true
    bindIp := "0.0.0.0".toList
    port := 2222
    hostKeyPath := hostKeyPath
    maxAuthAttempts := 3
    authTimeout := 60
    logLevel := "info".toList }
  security := {
    allowedIps := ["0.0.0.0/0".toList]
    deniedIps := []
    maxLoginAttempts := 5
    banDuration := 300
    requireSsl := false
    certPath := none
    keyPath := none
    maxConnections := 100
    connectionTimeout := 300
    idleTimeout := 600 }
  logging := {
    logDir := logDir
    logLevel := "info".toList
    maxLogSize := 10 * 1024 * 1024
    maxLogFiles := 10
    enableJson := false
    enableGuiLogging := true }

def Config.sample : Config :=
  .default "/home/ann/.local/state/wftpd/ssh/ssh_host_ed25519_key".toList "/home/ann/.local/state/wftpd/logs".toList

/-- The sample with other rules for logins. -/
def Config.letting (allowAnonymous : Bool) (anonymousHome : Option Text) (allowedIps deniedIps : List Text) : Config :=
  { Config.sample with
    ftp := { Config.sample.ftp with allowAnonymous := allowAnonymous, anonymousHome := anonymousHome }
    security := { Config.sample.security with allowedIps := allowedIps, deniedIps := deniedIps } }

/-- `Config::is_ip_allowed_for`: a denied entry wins, an empty list allows all. -/
def isIpAllowedFor (networks : Networks) (allowedIps deniedIps : List Text) (ip : Text) : Bool :=
  if deniedIps.any (ipMatchesCidr networks ip) then false
  else if allowedIps.isEmpty then true
  else allowedIps.any (ipMatchesCidr networks ip)

theorem isIpAllowedFor_iff {networks : Networks} {allowedIps deniedIps : List Text} {ip : Text} :
    isIpAllowedFor networks allowedIps deniedIps ip = true ↔
      (∀ cidr ∈ deniedIps, ipMatchesCidr networks ip cidr = false) ∧
        (allowedIps = [] ∨ ∃ cidr ∈ allowedIps, ipMatchesCidr networks ip cidr = true) := by
  unfold isIpAllowedFor
  split
  · next denied =>
      obtain ⟨cidr, member, hit⟩ := List.any_eq_true.mp denied
      constructor
      · intro impossible
        cases impossible
      · rintro ⟨clear, -⟩
        rw [clear cidr member] at hit
        cases hit
  · next clear =>
      have none : ∀ cidr ∈ deniedIps, ipMatchesCidr networks ip cidr = false := by simpa using clear
      split
      · next empty => exact ⟨fun _ => ⟨none, .inl (List.isEmpty_iff.mp empty)⟩, fun _ => rfl⟩
      · next listed =>
          rw [List.any_eq_true]
          exact ⟨fun hit => ⟨none, .inr hit⟩, fun both => both.2.resolve_left fun empty => listed (by simp [empty])⟩

end Wftpd.Common
