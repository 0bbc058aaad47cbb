import Wftpd.Library.PrefixRules
import Wftpd.Posix.Path

/-! Which events the log layers are given.

One filter stands before all layers and is exchanged when the level is set; each layer has a
filter of its own, built at start-up. An event has to pass both.
-/

set_option autoImplicit false

namespace Wftpd.Common.Tracing
open Wftpd.Posix Wftpd.Library

inductive Level where
  | error
  | warn
  | info
  | debug
  | trace
  deriving DecidableEq, Repr

def Level.verbosity : Level → Nat
  | .error => 1
  | .warn => 2
  | .info => 3
  | .debug => 4
  | .trace => 5

inductive LevelFilter where
  | off
  | upTo (level : Level)
  deriving DecidableEq, Repr

def LevelFilter.enables : LevelFilter → Level → Bool
  | .off, _ => false
  | .upTo most, level => level.verbosity ≤ most.verbosity

structure Event where
  level : Level
  target : Text
  deriving DecidableEq, Repr

abbrev Targets : Type := PrefixRules Char LevelFilter

def Targets.enabled (targets : Targets) (event : Event) : Bool :=
  (targets.find event.target).any fun filter => filter.enables event.level

/-- `to_lowercase`, as far as ASCII words are told apart. -/
def toLowercase (text : Text) : Text := text.map Char.toLower

def levelToFilter (level : Text) : LevelFilter :=
  let lower := toLowercase level
  if lower = "trace".toList then .upTo .trace
  else if lower = "debug".toList then .upTo .debug
  else if lower = "warn".toList ∨ lower = "warning".toList then .upTo .warn
  else if lower = "error".toList then .upTo .error
  else if lower = "off".toList then .off
  else .upTo .info

def parseLogLevel (level : Text) : Targets :=
  (PrefixRules.empty.withDefault (levelToFilter level)
    |>.withRule "russh".toList (.upTo .info)
    |>.withRule "russh-keys".toList (.upTo .warn)
    |>.withRule "tonic".toList (.upTo .info)
    |>.withRule "h2".toList (.upTo .warn)
    |>.withRule "tokio".toList (.upTo .warn)
    |>.withRule "runtime".toList (.upTo .warn))

inductive Layer where
  | console
  | program
  | audit
  | memory
  deriving DecidableEq, Repr

structure Subscriber where
  reload : Targets
  filters : Layer → Targets

def fileOps : Text := "file_ops".toList

/-- `init_tracing`. All layers but the audit log leave the file operations out. -/
def initTracing (logLevel : Text) : Subscriber where
  reload := parseLogLevel logLevel
  filters
    | .console | .program | .memory => (parseLogLevel logLevel).withRule fileOps .off
    | .audit => PrefixRules.empty.withRule fileOps (.upTo .info)

def setLogLevel (subscriber : Subscriber) (level : Text) : Subscriber := { subscriber with reload := parseLogLevel level }

def reaches (subscriber : Subscriber) (layer : Layer) (event : Event) : Bool :=
  subscriber.reload.enabled event && (subscriber.filters layer).enabled event

def afterLevels (initial : Text) (levels : List Text) : Subscriber := levels.foldl setLogLevel (initTracing initial)

def currentLevel (initial : Text) (levels : List Text) : Text := levels.getLast?.getD initial

def fileOpsEvent : Event := ⟨.info, fileOps⟩

/-- Setting the level exchanges one filter and leaves those of the layers alone. -/
theorem afterLevels_eq (initial : Text) (levels : List Text) :
    afterLevels initial levels =
      ⟨parseLogLevel (currentLevel initial levels), (initTracing initial).filters⟩ := by
  induction levels using List.reverseRecOn with
  | nil => rfl
  | append_singleton earlier level ih =>
      have last : currentLevel initial (earlier ++ [level]) = level := by simp [currentLevel]
      rw [afterLevels, List.foldl_append, ← afterLevels, ih, last]
      rfl

def crateRules : List (Text × LevelFilter) := (parseLogLevel []).rules

theorem parseLogLevel_eq (level : Text) : parseLogLevel level = ⟨crateRules, some (levelToFilter level)⟩ := rfl

def OfCrate (target : Text) : Prop := ∃ rule ∈ crateRules, rule.1 <+: target

instance (target : Text) : Decidable (OfCrate target) := inferInstanceAs (Decidable (∃ rule ∈ crateRules, _))

theorem find_ofCrate {target : Text} (ofCrate : OfCrate target) (first second : Text) :
    (parseLogLevel first).find target = (parseLogLevel second).find target := by
  obtain ⟨rule, member, applies⟩ := ofCrate
  rw [parseLogLevel_eq, parseLogLevel_eq]
  exact PrefixRules.find_of_some member applies

theorem find_not_ofCrate {target : Text} (plain : ¬ OfCrate target) (level : Text) :
    (parseLogLevel level).find target = some (levelToFilter level) :=
  PrefixRules.find_of_none fun rule member applies => plain ⟨rule, member, applies⟩

theorem reaches_afterLevels (initial : Text) (levels : List Text) (layer : Layer) (event : Event) :
    reaches (afterLevels initial levels) layer event =
      ((parseLogLevel (currentLevel initial levels)).enabled event &&
        ((initTracing initial).filters layer).enabled event) := by
  rw [afterLevels_eq, reaches]

def quietLevels : List Text := ["warn".toList, "warning".toList, "error".toList, "off".toList]

theorem levelToFilter_info_iff (level : Text) :
    (levelToFilter level).enables .info = true ↔ toLowercase level ∉ quietLevels := by
  simp only [levelToFilter, quietLevels, List.mem_cons, List.not_mem_nil, or_false, not_or]
  split
  · next trace => exact iff_of_true rfl (by rw [trace]; decide)
  · split
    · next debug => exact iff_of_true rfl (by rw [debug]; decide)
    · split
      · next warn => exact iff_of_false (by decide) (by rcases warn with same | same <;> simp [same])
      · next loud =>
          split
          · next error => exact iff_of_false (by decide) (by simp [error])
          · next fine =>
              split
              · next off => exact iff_of_false (by decide) (by simp [off])
              · next on => exact iff_of_true rfl ⟨fun same => loud (.inl same), fun same => loud (.inr same), fine, on⟩

/-- A file operation comes to the audit log exactly while the level is not below INFO. -/
theorem fileOps_audited_iff (initial : Text) (levels : List Text) :
    reaches (afterLevels initial levels) .audit fileOpsEvent = true ↔
      toLowercase (currentLevel initial levels) ∉ quietLevels := by
  have own : ((initTracing initial).filters .audit).enabled fileOpsEvent = true := by
    show Targets.enabled (PrefixRules.empty.withRule fileOps (.upTo .info)) fileOpsEvent = true
    decide
  have plain : ¬ OfCrate fileOpsEvent.target := by decide
  -- no crate rule stands for the target, so the filter in front uses its default
  rw [reaches_afterLevels, own, Bool.and_true, Targets.enabled, find_not_ofCrate plain, Option.any_some]
  exact levelToFilter_info_iff _

theorem fileOps_lost : ¬ ∀ (initial : Text) (levels : List Text),
    reaches (afterLevels initial levels) .audit fileOpsEvent = true := by
  intro recorded
  exact absurd (recorded "info".toList ["warn".toList]) (by decide)

/-- The layers whose filters were built from the initial level. -/
def Layer.isGeneral : Layer → Bool
  | .console | .program | .memory => true
  | .audit => false

theorem general_enabled (initial : Text) {layer : Layer} (general : layer.isGeneral = true) {event : Event}
    (ordinary : ¬ fileOps <+: event.target) :
    ((initTracing initial).filters layer).enabled event = (parseLogLevel initial).enabled event := by
  have filter : (initTracing initial).filters layer = (parseLogLevel initial).withRule fileOps .off := by
    cases layer with
    | console | program | memory => rfl
    | audit => cases general
  rw [filter, Targets.enabled, PrefixRules.find_withRule _ ordinary, ← Targets.enabled]

/-- An event reaches the log buffer and the program log as the current level says. -/
def TakesEffect (initial : Text) (levels : List Text) (event : Event) : Prop :=
  ∀ layer ∈ [Layer.memory, Layer.program],
    reaches (afterLevels initial levels) layer event = (parseLogLevel (currentLevel initial levels)).enabled event

/-- The current level counts for an event exactly when its crate has a level of its own, when
the initial level lets it through, or when the current one does not. -/
theorem takesEffect_iff (initial : Text) (levels : List Text) (event : Event) (ordinary : ¬ fileOps <+: event.target) :
    TakesEffect initial levels event ↔
      OfCrate event.target ∨ (levelToFilter initial).enables event.level = true ∨
        (levelToFilter (currentLevel initial levels)).enables event.level = false := by
  have both (layer : Layer) (general : layer.isGeneral = true) :
      reaches (afterLevels initial levels) layer event =
        ((parseLogLevel (currentLevel initial levels)).enabled event && (parseLogLevel initial).enabled event) := by
    rw [reaches_afterLevels, general_enabled initial general ordinary]
  simp only [TakesEffect, List.forall_mem_cons, both .memory rfl, both .program rfl, List.not_mem_nil, false_implies,
    implies_true, and_true, and_self]
  by_cases ofCrate : OfCrate event.target
  · -- a crate's own level is the same in every filter
    have same : (parseLogLevel initial).enabled event = (parseLogLevel (currentLevel initial levels)).enabled event := by
      rw [Targets.enabled, Targets.enabled, find_ofCrate ofCrate initial]
    simp [ofCrate, same]
  · simp only [Targets.enabled, find_not_ofCrate ofCrate, Option.any_some, ofCrate, false_or]
    cases (levelToFilter initial).enables event.level <;>
      cases (levelToFilter (currentLevel initial levels)).enables event.level <;> simp

theorem takesEffect_lowered :
    TakesEffect "info".toList ["warn".toList] ⟨.warn, "wftpd".toList⟩ ↔
      OfCrate "wftpd".toList ∨ (levelToFilter "info".toList).enables .warn = true ∨
        (levelToFilter (currentLevel "info".toList ["warn".toList])).enables .warn = false :=
  takesEffect_iff "info".toList ["warn".toList] ⟨.warn, "wftpd".toList⟩ (by decide)

/-- Started at `info` and set to `debug`, the daemon keeps no debug message. -/
theorem raised_level_ignored : ¬ ∀ (initial : Text) (levels : List Text) (event : Event),
    ¬ fileOps <+: event.target → TakesEffect initial levels event := by
  intro takesEffect
  have reached := takesEffect "info".toList ["debug".toList] ⟨.debug, "wftpd".toList⟩ (by decide) .memory (by simp)
  exact absurd reached (by decide)

end Wftpd.Common.Tracing
