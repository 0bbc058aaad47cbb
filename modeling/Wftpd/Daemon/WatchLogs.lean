import Wftpd.Common.LogBuffer
import Wftpd.Library.Parties

/-! Log entries that are pushed while clients ask to watch the log.

A push appends to the ring, which it holds for that, and broadcasts the entry afterwards. A
watch request takes the recent entries of the ring and then subscribes to the broadcasts. No
subscriber lags behind, so that what is broadcast waits for it however long it takes.
-/

set_option autoImplicit false

namespace Wftpd.Daemon.WatchLogs
open Wftpd.Common Wftpd.Common.LogBuffer Wftpd.Library

/-- The task that forwards to one client: the history first, then what is broadcast. -/
structure Watch where
  tailCount : UInt32
  history : List LogEntryJson
  queue : List LogEntryJson
  delivered : List LogEntry
  deriving DecidableEq, Repr

namespace Watch

def receive (watch : Watch) (entry : LogEntryJson) : Watch := { watch with queue := watch.queue ++ [entry] }

def forward (watch : Watch) : Option Watch :=
  match watch.history, watch.queue with
  | entry :: history, _ => some { watch with history, delivered := watch.delivered ++ [entry.into] }
  | [], entry :: queue => some { watch with queue, delivered := watch.delivered ++ [entry.into] }
  | [], [] => none

/-- Everything the client has been sent, or will be sent without another push. -/
def forwarded (watch : Watch) : List LogEntry := watch.delivered ++ (watch.history ++ watch.queue).map (·.into)

@[simp] theorem forwarded_receive (watch : Watch) (entry : LogEntryJson) :
    (watch.receive entry).forwarded = watch.forwarded ++ [entry.into] := by
  simp [forwarded, receive]

theorem forward_eq_none {watch : Watch} : watch.forward = none ↔ watch.history = [] ∧ watch.queue = [] := by
  obtain ⟨tailCount, history, queue, delivered⟩ := watch
  cases history <;> cases queue <;> simp [forward]

theorem forward_keeps {watch next : Watch} (taken : watch.forward = some next) :
    next.tailCount = watch.tailCount ∧ next.forwarded = watch.forwarded := by
  obtain ⟨tailCount, history, queue, delivered⟩ := watch
  cases history with
  | cons entry history =>
      cases taken
      exact ⟨rfl, by simp [forwarded]⟩
  | nil =>
      cases queue with
      | cons entry queue =>
          cases taken
          exact ⟨rfl, by simp [forwarded]⟩
      | nil => cases taken

end Watch

/-- The entries appended, each with the party that did, and the numbers of those that were
broadcast are history, which no step reads. -/
structure Backend where
  logBuffer : LogBuffer
  guiLogging : Bool
  streams : Nat → Option Watch
  pushed : List (Nat × LogEntryJson)
  sent : List Nat

def Backend.initial (capacity : Nat) (guiLogging : Bool) : Backend :=
  ⟨.new capacity, guiLogging, fun _ => none, [], []⟩

def Backend.log (backend : Backend) : List LogEntryJson := backend.pushed.map Prod.snd

section Operations
variable (backend : Backend) (party : Nat)

def Backend.append (entry : LogEntryJson) : Backend :=
  { backend with
    logBuffer := backend.logBuffer.append entry
    pushed := backend.pushed ++ [(party, entry)] }

def Backend.send (number : Nat) (entry : LogEntryJson) : Backend :=
  { backend with
    streams := fun watcher => (backend.streams watcher).map (·.receive entry)
    sent := backend.sent ++ [number] }

def Backend.watch (watch : Watch) : Backend :=
  { backend with streams := Function.update backend.streams party (some watch) }

end Operations

inductive Call where
  | push (entry : LogEntryJson)
  | watchLogs (tailCount : UInt32)
  deriving DecidableEq, Repr

/-- An entry to broadcast has its number among those appended, and a history its moment: how
many were appended by then. -/
inductive Piece where
  | append (entry : LogEntryJson)
  | send (number : Nat) (entry : LogEntryJson)
  | consult (tailCount : UInt32)
  | recent (tailCount : UInt32)
  | subscribe (tailCount : UInt32) (moment : Nat) (history : List LogEntryJson)
  | forward
  deriving DecidableEq, Repr

def program : Call → List Piece
  | .push entry => [.append entry]
  | .watchLogs tailCount => [.consult tailCount]

def act (party : Nat) (_ : Unit) (backend : Backend) (piece : Piece) (rest : List Piece) :
    Option (Backend × List Piece) :=
  match piece with
  | .append entry => some (backend.append party entry, .send backend.pushed.length entry :: rest)
  | .send number entry => some (backend.send number entry, rest)
  | .consult tailCount =>
      -- without gui logging the stream ends at once, and nothing is sent on it
      some (backend, if backend.guiLogging then .recent tailCount :: rest else rest)
  | .recent tailCount =>
      some (backend, .subscribe tailCount backend.pushed.length (backend.logBuffer.recent tailCount.toNat) :: rest)
  | .subscribe tailCount _ history => some (backend.watch party ⟨tailCount, history, [], []⟩, .forward :: rest)
  | .forward =>
      -- the task waits while it has nothing to send, and goes on for as long as the client does
      (backend.streams party).bind fun watch => watch.forward.map fun watch =>
        (backend.watch party watch, .forward :: rest)

def step : Parties Backend Piece → Move Call Unit → Option (Parties Backend Piece) := Parties.step program act

/-- What the client has been sent, with what waits for it and what is missing because it is
still to be broadcast, are the recent entries of the ring at some moment and all that were
appended after that moment. Nothing is missing once every entry was broadcast. -/
def Delivers (capacity : Nat) (parties : Parties Backend Piece) (watch : Watch) : Prop :=
  ∃ moment ≤ parties.shared.log.length, ∃ missing,
    watch.delivered ++ (watch.history ++ watch.queue ++ missing).map (·.into) =
      ((ring capacity (parties.shared.log.take moment)).recent watch.tailCount.toNat ++
        parties.shared.log.drop moment).map (·.into) ∧
    ((∀ party number entry, ¬ parties.At party (.send number entry)) → missing = [])

def Backend.Sent (backend : Backend) (count : Nat) : Prop :=
  count ≤ backend.pushed.length ∧ ∀ number, number ∈ backend.sent ↔ number < count

/-- A request subscribes when exactly the entries that are in its history, or were before them,
have been broadcast; without a history, when the entries broadcast are the first of those
appended. From then on the entries are broadcast in ring order. -/
def InOrder (parties : Parties Backend Piece) : Move Call Unit → Prop
  | .arrive _ _ => True
  | .go party _ =>
      (∀ tailCount moment history, parties.At party (.subscribe tailCount moment history) →
        ∃ count, parties.shared.Sent count ∧ (tailCount = 0 ∨ count = moment)) ∧
      ∀ number entry watcher, parties.At party (.send number entry) →
        (parties.shared.streams watcher).isSome → ∀ earlier < number, earlier ∈ parties.shared.sent

section Invariant
variable (capacity : Nat)

/-- What a stream forwards are the recent entries at some moment, and after them those that
were broadcast since. -/
def Follows (backend : Backend) (watch : Watch) : Prop :=
  ∃ moment count, moment ≤ count ∧ backend.Sent count ∧
    watch.forwarded = ((ring capacity (backend.log.take moment)).recent watch.tailCount.toNat ++
      (backend.log.take count).drop moment).map (·.into)

structure Sound (backend : Backend) : Prop where
  logBuffer : backend.logBuffer = ring capacity backend.log
  sent : ∀ number ∈ backend.sent, number < backend.pushed.length
  streams : ∀ watcher watch, backend.streams watcher = some watch → Follows capacity backend watch

/-- The entry to broadcast is the party's own, and the history is that of its moment. -/
def PieceFits (party : Nat) (backend : Backend) : Piece → Prop
  | .send number entry => backend.pushed[number]? = some (party, entry) ∧ number ∉ backend.sent
  | .subscribe tailCount moment history =>
      moment ≤ backend.log.length ∧ history = (ring capacity (backend.log.take moment)).recent tailCount.toNat
  | .append _ | .consult _ | .recent _ | .forward => True

/-- A party does one thing at a time, and broadcasts the entry that it has appended. -/
structure Fits (party : Nat) (backend : Backend) (pieces : List Piece) : Prop where
  single : pieces.length ≤ 1
  each : ∀ piece ∈ pieces, PieceFits capacity party backend piece
  sends : ∀ number entry, backend.pushed[number]? = some (party, entry) → number ∉ backend.sent →
    pieces.head? = some (.send number entry)

variable {capacity}

section Append
variable {backend : Backend} {party : Nat} {entry : LogEntryJson}

@[simp] theorem log_append : (backend.append party entry).log = backend.log ++ [entry] := by
  simp [Backend.log, Backend.append]

@[simp] theorem log_length : backend.log.length = backend.pushed.length := List.length_map ..

theorem Backend.Sent.append {count : Nat} (sent : backend.Sent count) : (backend.append party entry).Sent count :=
  ⟨by simpa [Backend.append] using Nat.le_succ_of_le sent.1, sent.2⟩

theorem Follows.append {watch : Watch} (follows : Follows capacity backend watch) :
    Follows capacity (backend.append party entry) watch := by
  obtain ⟨moment, count, earlier, sent, same⟩ := follows
  have within : count ≤ backend.log.length := by simpa using sent.1
  refine ⟨moment, count, earlier, sent.append, ?_⟩
  rw [log_append, List.take_append_of_le_length within, List.take_append_of_le_length (earlier.trans within)]
  exact same

theorem Sound.append (sound : Sound capacity backend) : Sound capacity (backend.append party entry) where
  logBuffer := by
    rw [log_append, ring_append, ← sound.logBuffer]
    rfl
  sent := fun number member => by
    simpa [Backend.append] using Nat.lt_succ_of_lt (sound.sent number member)
  streams := fun watcher watch watching => (sound.streams watcher watch watching).append

theorem pushed_append {other number : Nat} {found : LogEntryJson}
    (here : backend.pushed[number]? = some (other, found)) :
    (backend.append party entry).pushed[number]? = some (other, found) := by
  rw [Backend.append, List.getElem?_append_left (List.getElem?_eq_some_iff.mp here).1, here]

/-- The entry appended has the last number, and all others were there. -/
theorem of_pushed_append {other number : Nat} {found : LogEntryJson}
    (here : (backend.append party entry).pushed[number]? = some (other, found)) :
    backend.pushed[number]? = some (other, found) ∨
      number = backend.pushed.length ∧ other = party ∧ found = entry := by
  by_cases within : number < backend.pushed.length
  · left
    rwa [Backend.append, List.getElem?_append_left within] at here
  · right
    rw [Backend.append, List.getElem?_append_right (Nat.le_of_not_lt within), List.getElem?_singleton] at here
    split at here
    · cases here
      exact ⟨by omega, rfl, rfl⟩
    · cases here

theorem PieceFits.append {other : Nat} {piece : Piece} (fits : PieceFits capacity other backend piece) :
    PieceFits capacity other (backend.append party entry) piece := by
  cases piece with
  | send number found => exact ⟨pushed_append fits.1, fits.2⟩
  | subscribe tailCount moment history =>
      obtain ⟨within, same⟩ := fits
      refine ⟨by simpa using Nat.le_succ_of_le (by simpa using within), ?_⟩
      rw [log_append, List.take_append_of_le_length within]
      exact same
  | append | consult | recent | forward => trivial

theorem Fits.append {other : Nat} {pieces : List Piece} (apart : other ≠ party)
    (fits : Fits capacity other backend pieces) : Fits capacity other (backend.append party entry) pieces where
  single := fits.single
  each := fun piece member => (fits.each piece member).append
  sends := by
    intro number found here unsent
    rcases of_pushed_append here with before | ⟨-, own, -⟩
    · exact fits.sends number found before unsent
    · exact absurd own apart

end Append

section Send
variable {backend : Backend} {party number : Nat} {entry : LogEntryJson}

/-- When the earlier entries have been broadcast, a broadcast is that of the next one. -/
theorem Backend.Sent.next {count : Nat} (sent : backend.Sent count) (fresh : number ∉ backend.sent)
    (inOrder : ∀ earlier < number, earlier ∈ backend.sent) : number = count := by
  apply Nat.le_antisymm
  · by_contra beyond
    exact Nat.lt_irrefl count ((sent.2 count).mp (inOrder count (Nat.lt_of_not_le beyond)))
  · exact Nat.le_of_not_lt fun within => fresh ((sent.2 number).mpr within)

theorem Backend.Sent.send {count : Nat} (sent : backend.Sent count) (within : count < backend.pushed.length) :
    (backend.send count entry).Sent (count + 1) := by
  refine ⟨within, fun number => ?_⟩
  simp only [Backend.send, List.mem_append, List.mem_singleton, sent.2 number]
  omega

theorem Follows.send {watch : Watch} (follows : Follows capacity backend watch)
    (fits : PieceFits capacity party backend (.send number entry))
    (inOrder : ∀ earlier < number, earlier ∈ backend.sent) :
    Follows capacity (backend.send number entry) (watch.receive entry) := by
  obtain ⟨moment, count, earlier, sent, same⟩ := follows
  obtain ⟨here, fresh⟩ := fits
  obtain rfl := sent.next fresh inOrder
  have within := (List.getElem?_eq_some_iff.mp here).1
  have found : backend.log[number]? = some entry := by
    rw [Backend.log, List.getElem?_map, here]
    rfl
  have extended : (backend.log.take (number + 1)).drop moment = (backend.log.take number).drop moment ++ [entry] := by
    rw [List.take_add_one, found, Option.toList_some, List.drop_append_of_le_length]
    rw [List.length_take, log_length]
    omega
  refine ⟨moment, number + 1, Nat.le_succ_of_le earlier, sent.send within, ?_⟩
  rw [Watch.forwarded_receive, same]
  change _ = ((ring capacity (backend.log.take moment)).recent watch.tailCount.toNat ++
    (backend.log.take (number + 1)).drop moment).map (·.into)
  rw [extended]
  simp

theorem Sound.send (sound : Sound capacity backend) (fits : PieceFits capacity party backend (.send number entry))
    (inOrder : ∀ watcher, (backend.streams watcher).isSome → ∀ earlier < number, earlier ∈ backend.sent) :
    Sound capacity (backend.send number entry) where
  logBuffer := sound.logBuffer
  sent := by
    intro other member
    rcases List.mem_append.mp member with member | same
    · exact sound.sent other member
    · cases List.mem_singleton.mp same
      exact (List.getElem?_eq_some_iff.mp fits.1).1
  streams := by
    intro watcher watch watching
    obtain ⟨before, watched, rfl⟩ := Option.map_eq_some_iff.mp watching
    exact (sound.streams watcher before watched).send fits (inOrder watcher (by simp [watched]))

theorem Fits.send {other : Nat} {pieces : List Piece} (apart : other ≠ party)
    (own : PieceFits capacity party backend (.send number entry)) (fits : Fits capacity other backend pieces) :
    Fits capacity other (backend.send number entry) pieces where
  single := fits.single
  each := by
    intro piece member
    have before := fits.each piece member
    cases piece with
    | send number' entry' =>
        refine ⟨before.1, fun sent => ?_⟩
        rcases List.mem_append.mp sent with sent | same
        · exact before.2 sent
        · cases List.mem_singleton.mp same
          cases before.1.symm.trans own.1
          exact apart rfl
    | subscribe => exact before
    | append | consult | recent | forward => trivial
  sends := fun number' entry' here unsent =>
    fits.sends number' entry' here fun sent => unsent (List.mem_append_left _ sent)

end Send

section Outline
variable {backend : Backend} {party : Nat}

theorem Sound.watch {watch : Watch} (sound : Sound capacity backend) (follows : Follows capacity backend watch) :
    Sound capacity (backend.watch party watch) where
  logBuffer := sound.logBuffer
  sent := sound.sent
  streams := by
    intro watcher found watching
    by_cases own : watcher = party
    · subst own
      obtain rfl : watch = found := by simpa [Backend.watch] using watching
      exact follows
    · exact sound.streams watcher found (by simpa [Backend.watch, own] using watching)

theorem Fits.watch {other : Nat} {watch : Watch} {pieces : List Piece} (fits : Fits capacity other backend pieces) :
    Fits capacity other (backend.watch party watch) pieces where
  single := fits.single
  each := fun piece member => by
    have before := fits.each piece member
    cases piece <;> exact before
  sends := fits.sends

/-- The subscription of a history that ends where the broadcasts do. -/
theorem Follows.subscribe {tailCount : UInt32} {moment count : Nat} {history : List LogEntryJson}
    (fits : PieceFits capacity party backend (.subscribe tailCount moment history)) (sent : backend.Sent count)
    (ends : tailCount = 0 ∨ count = moment) : Follows capacity backend ⟨tailCount, history, [], []⟩ := by
  obtain ⟨-, rfl⟩ := fits
  refine ⟨count, count, Nat.le_refl count, sent, ?_⟩
  rcases ends with rfl | rfl <;> simp [Watch.forwarded]

theorem Fits.other {pieces left : List Piece} (fits : Fits capacity party backend pieces)
    (quiet : ∀ number entry, pieces.head? ≠ some (.send number entry)) (single : left.length ≤ 1)
    (each : ∀ piece ∈ left, PieceFits capacity party backend piece) : Fits capacity party backend left where
  single := single
  each := each
  sends := fun number entry here unsent => absurd (fits.sends number entry here unsent) (quiet number entry)

theorem Fits.append_own {entry : LogEntryJson} (fits : Fits capacity party backend [.append entry])
    (sound : Sound capacity backend) :
    Fits capacity party (backend.append party entry) [.send backend.pushed.length entry] where
  single := Nat.le_refl 1
  each := by
    refine List.forall_mem_singleton.mpr ⟨by simp [Backend.append], fun sent => ?_⟩
    exact Nat.lt_irrefl _ (sound.sent _ sent)
  sends := by
    intro number found here unsent
    rcases of_pushed_append here with before | ⟨rfl, -, rfl⟩
    · cases fits.sends number found before unsent
    · rfl

theorem Fits.send_own {number : Nat} {entry : LogEntryJson} (fits : Fits capacity party backend [.send number entry]) :
    Fits capacity party (backend.send number entry) [] where
  single := Nat.zero_le 1
  each := by simp
  sends := by
    intro other found here unsent
    have unsentBefore : other ∉ backend.sent := fun sent => unsent (List.mem_append_left _ sent)
    cases fits.sends other found here unsentBefore
    exact absurd (List.mem_append_right _ (List.mem_singleton_self _)) unsent

theorem act_outline (parties : Parties Backend Piece) (party : Nat) (input : Unit) (piece : Piece) (rest : List Piece)
    (next : Backend) (left : List Piece) (sound : Sound capacity parties.shared)
    (fits : Fits capacity party parties.shared (piece :: rest)) (todo : parties.todo party = piece :: rest)
    (inOrder : InOrder parties (.go party input)) (acted : act party input parties.shared piece rest = some (next, left)) :
    Sound capacity next ∧ Fits capacity party next left ∧
      ∀ other pieces, other ≠ party → Fits capacity other parties.shared pieces → Fits capacity other next pieces := by
  have atPiece : parties.At party piece := by rw [Parties.At, todo, List.head?_cons]
  have own := fits.each piece (List.mem_cons_self ..)
  obtain rfl : rest = [] := List.length_eq_zero_iff.mp (Nat.le_zero.mp (Nat.le_of_succ_le_succ fits.single))
  cases piece with
  | append entry =>
      cases acted
      exact ⟨sound.append, fits.append_own sound, fun other pieces apart fits => fits.append apart⟩
  | send number entry =>
      cases acted
      have earlier : ∀ watcher, (parties.shared.streams watcher).isSome →
          ∀ earlier < number, earlier ∈ parties.shared.sent := fun watcher => inOrder.2 number entry watcher atPiece
      exact ⟨sound.send own earlier, fits.send_own, fun other pieces apart fits => fits.send apart own⟩
  | consult tailCount =>
      cases acted
      refine ⟨sound, fits.other (by simp) ?_ ?_, fun _ _ _ fits => fits⟩ <;> split <;> simp [PieceFits]
  | recent tailCount =>
      cases acted
      refine ⟨sound, fits.other (by simp) (Nat.le_refl 1) ?_, fun _ _ _ fits => fits⟩
      refine List.forall_mem_singleton.mpr ⟨by simp, ?_⟩
      rw [sound.logBuffer, ← log_length, List.take_length]
  | subscribe tailCount moment history =>
      cases acted
      -- the history ends with the entries broadcast, so that the queue goes on from there
      obtain ⟨count, sent, ends⟩ := inOrder.1 tailCount moment history atPiece
      have follows := Follows.subscribe own sent ends
      have forwards : Fits capacity party parties.shared [.forward] :=
        fits.other (by simp) (Nat.le_refl 1) (by simp [PieceFits])
      exact ⟨sound.watch follows, forwards.watch, fun _ _ _ fits => fits.watch⟩
  | forward =>
      obtain ⟨before, watching, forwards⟩ := Option.bind_eq_some_iff.mp acted
      obtain ⟨watch, taken, same⟩ := Option.map_eq_some_iff.mp forwards
      cases same
      obtain ⟨tail, forwarded⟩ := Watch.forward_keeps taken
      have follows : Follows capacity parties.shared watch := by
        have earlier := sound.streams party before watching
        rwa [Follows, ← tail, ← forwarded] at earlier
      exact ⟨sound.watch follows, fits.watch, fun _ _ _ fits => fits.watch⟩

theorem program_fits (parties : Parties Backend Piece) (party : Nat) (call : Call)
    (fits : Fits capacity party parties.shared []) : Fits capacity party parties.shared (program call) := by
  cases call with
  | push entry => exact fits.other (by simp) (Nat.le_refl 1) (by simp [program, PieceFits])
  | watchLogs tailCount => exact fits.other (by simp) (Nat.le_refl 1) (by simp [program, PieceFits])

end Outline

end Invariant

/-- What a client is sent when requests subscribe and entries are broadcast in order. -/
theorem watch_delivers (capacity : Nat) (guiLogging : Bool) (moves : List (Move Call Unit))
    (final : Parties Backend Piece) (party : Nat) (watch : Watch)
    (inOrder : Guarded step InOrder (.idle (.initial capacity guiLogging)) moves)
    (reached : exec step (.idle (.initial capacity guiLogging)) moves = some final)
    (watching : final.shared.streams party = some watch) : Delivers capacity final watch := by
  have initial : Sound capacity (.initial capacity guiLogging) :=
    ⟨rfl, by simp [Backend.initial], by simp [Backend.initial]⟩
  have idle (party : Nat) : Fits capacity party (.initial capacity guiLogging) [] :=
    ⟨Nat.zero_le 1, by simp, by simp [Backend.initial]⟩
  obtain ⟨sound, fits⟩ : Sound capacity final.shared ∧ ∀ party, Fits capacity party final.shared (final.todo party) :=
    exec_invariant (Parties.step_outline (fun parties party call fits _ => program_fits parties party call fits)
      act_outline) ⟨initial, idle⟩ inOrder reached
  obtain ⟨moment, count, earlier, sent, same⟩ := sound.streams party watch watching
  have within : count ≤ final.shared.log.length := by simpa using sent.1
  refine ⟨moment, earlier.trans within, final.shared.log.drop count, ?_, fun quiet => ?_⟩
  · have split : final.shared.log.drop moment =
        (final.shared.log.take count).drop moment ++ final.shared.log.drop count := by
      rw [← List.drop_append_of_le_length, List.take_append_drop]
      rw [List.length_take]
      omega
    rw [Watch.forwarded] at same
    rw [List.map_append, ← List.append_assoc, same, split]
    simp only [List.map_append, List.append_assoc]
  · -- an entry that was not broadcast would still be its party's to broadcast
    apply List.drop_eq_nil_of_le
    by_contra beyond
    rw [Nat.not_le, log_length] at beyond
    obtain ⟨owner, entry⟩ : ∃ owner, final.At owner (.send count (final.shared.pushed[count]).2) := by
      refine ⟨(final.shared.pushed[count]).1, (fits _).sends count _ (List.getElem?_eq_getElem beyond) fun broadcast => ?_⟩
      exact Nat.lt_irrefl count ((sent.2 count).mp broadcast)
    exact quiet owner count _ entry

/-- Each entry is sent once and in ring order: what a client is sent continues to the end of the
log from one place in it. -/
theorem Delivers.contiguous {capacity : Nat} {parties : Parties Backend Piece} {watch : Watch}
    (delivers : Delivers capacity parties watch) : ∃ start missing,
      watch.delivered ++ (watch.history ++ watch.queue ++ missing).map (·.into) =
        (parties.shared.log.drop start).map (·.into) := by
  obtain ⟨moment, within, missing, same, -⟩ := delivers
  refine ⟨moment - min watch.tailCount.toNat (max capacity 1), missing, ?_⟩
  rw [same, recent_ring, List.length_take, Nat.min_eq_left within]
  rw [← List.drop_append_of_le_length (by rw [List.length_take]; omega), List.take_append_drop]

/-- Once every entry was broadcast and the task waits for more, the client has been sent them all. -/
theorem Delivers.all {capacity : Nat} {parties : Parties Backend Piece} {watch : Watch}
    (delivers : Delivers capacity parties watch) (waits : watch.forward = none)
    (quiet : ∀ party number entry, ¬ parties.At party (.send number entry)) :
    ∃ moment ≤ parties.shared.log.length, watch.delivered =
      ((ring capacity (parties.shared.log.take moment)).recent watch.tailCount.toNat ++
        parties.shared.log.drop moment).map (·.into) := by
  obtain ⟨moment, within, missing, same, whole⟩ := delivers
  obtain ⟨history, queue⟩ := Watch.forward_eq_none.mp waits
  refine ⟨moment, within, ?_⟩
  rw [← same, whole quiet, history, queue]
  simp

section Runs

def firstEntry : LogEntryJson where
  timestamp := "2025-01-01T00:00:00Z".toList
  level := "INFO".toList
  source := "wftpd".toList
  message := "started".toList
  clientIp := none
  username := none
  action := none

def started : Parties Backend Piece := .idle (.initial 2000 true)

def pushThenWatch : List (Move Call Unit) :=
  [.arrive 1 (.push firstEntry), .go 1 (), .go 1 (), .arrive 0 (.watchLogs 10), .go 0 (), .go 0 (), .go 0 (),
    .go 0 ()]

theorem inOrder_other {parties : Parties Backend Piece} {party : Nat} {piece : Piece} (waits : parties.At party piece)
    (subscribes : ∀ tailCount moment history, piece ≠ .subscribe tailCount moment history)
    (sends : ∀ number entry, piece ≠ .send number entry) : InOrder parties (.go party ()) :=
  ⟨fun _ _ _ same => absurd (Option.some.inj (waits.symm.trans same)) (subscribes _ _ _),
    fun _ _ _ same => absurd (Option.some.inj (waits.symm.trans same)) (sends _ _)⟩

/-- A client that watches after an entry was broadcast is sent that entry. -/
theorem watch_delivers_history : ∃ final watch, exec step started pushThenWatch = some final ∧
    final.shared.streams 0 = some watch ∧ watch.delivered = [firstEntry.into] ∧ Delivers 2000 final watch := by
  have inOrder : Guarded step InOrder started pushThenWatch := by
    refine .cons trivial rfl (.cons (inOrder_other rfl (by simp) (by simp)) rfl (.cons ?_ rfl (.cons trivial rfl
      (.cons (inOrder_other rfl (by simp) (by simp)) rfl (.cons (inOrder_other rfl (by simp) (by simp)) rfl
        (.cons ?_ rfl (.cons (inOrder_other rfl (by simp) (by simp)) rfl trivial)))))))
    · refine ⟨fun _ _ _ waits => ?_, fun _ _ _ _ watching => ?_⟩
      · cases waits
      · cases watching
    · refine ⟨fun _ _ _ waits => ?_, fun _ _ _ waits => ?_⟩
      · cases waits
        exact ⟨1, ⟨Nat.le_refl 1, by simp [started, Parties.idle, Backend.send, Backend.append, Backend.initial]⟩, .inr rfl⟩
      · cases waits
  exact ⟨_, _, rfl, rfl, rfl, watch_delivers 2000 true pushThenWatch _ 0 _ inOrder rfl rfl⟩

/-- An entry that is appended after the history was taken, and broadcast before the request
subscribes, is not sent. -/
theorem lostEntry_run : ∃ final watch, exec step started
    [.arrive 0 (.watchLogs 10), .go 0 (), .go 0 (), .arrive 1 (.push firstEntry), .go 1 (), .go 1 (),
      .go 0 ()] = some final ∧
    final.shared.streams 0 = some watch ∧ watch = ⟨10, [], [], []⟩ ∧ final.shared.log = [firstEntry] ∧
    ∀ party number entry, ¬ final.At party (.send number entry) := by
  refine ⟨_, _, rfl, rfl, rfl, rfl, fun party number entry => ?_⟩
  by_cases first : party = 0 <;> by_cases second : party = 1 <;>
    simp [Parties.At, started, Parties.idle, first, second]

theorem watch_loses_entry : ¬ ∀ (capacity : Nat) (guiLogging : Bool) (moves : List (Move Call Unit))
    (final : Parties Backend Piece) (party : Nat) (watch : Watch),
    exec step (.idle (.initial capacity guiLogging)) moves = some final →
    final.shared.streams party = some watch → Delivers capacity final watch := by
  intro delivers
  obtain ⟨final, watch, reached, watching, rfl, log, quiet⟩ := lostEntry_run
  obtain ⟨moment, within, missing, same, whole⟩ := delivers 2000 true _ final 0 _ reached watching
  rw [whole quiet, log] at same
  obtain rfl | rfl : moment = 0 ∨ moment = 1 := by
    simp only [log, List.length_singleton] at within
    omega
  · exact absurd same (by decide)
  · exact absurd same (by decide)

end Runs

end Wftpd.Daemon.WatchLogs
