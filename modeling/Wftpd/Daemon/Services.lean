import Wftpd.Common.Config
import Wftpd.Library.Parties

/-! The calls that start and stop the FTP and the SFTP server, which lock the slot of a server
only to look at it, to fill it and to empty it.

A server that was launched has a listener, a task of its own that may end at any time, and a
flag that says it is running, which that task resets after its end.
-/

set_option autoImplicit false

namespace Wftpd.Daemon.Services
open Wftpd.Common Wftpd.Library

/-- The servers of one service, numbered as they were launched. -/
structure Servers where
  slot : Option Nat
  launched : Nat
  listening : Nat → Bool
  running : Nat → Bool
  told : Nat → Bool

/-- `BackendState`, with the flags of the configuration it reads. -/
structure BackendState where
  enabled : Service → Bool
  servers : Service → Servers

inductive Call where
  | start (service : Service)
  | stop (service : Service)
  | restart (service : Service)
  | stopAll
  | applyEnabledFlags
  /-- A request of another kind changes the configuration. -/
  | setEnabled (service : Service) (enabled : Bool)
  /-- The listener of a server ends. -/
  | exits (service : Service) (server : Nat)
  deriving DecidableEq, Repr

inductive Piece where
  | check (service : Service)
  | launch (service : Service)
  | store (service : Service) (server : Nat)
  | take (service : Service)
  | tell (service : Service) (server : Nat)
  | flags
  | consult (service : Service) (enabled : Bool)
  | setEnabled (service : Service) (enabled : Bool)
  | exit (service : Service) (server : Nat)
  | report (service : Service) (server : Nat)
  deriving DecidableEq, Repr

def program : Call → List Piece
  | .start service => [.check service]
  | .stop service => [.take service]
  | .restart service => [.take service, .check service]
  | .stopAll => [.take .ftp, .take .sftp]
  | .applyEnabledFlags => [.flags]
  | .setEnabled service enabled => [.setEnabled service enabled]
  | .exits service server => [.exit service server, .report service server]

namespace Servers

def none : Servers := ⟨.none, 0, fun _ => false, fun _ => false, fun _ => false⟩

/-- `start` of a new server: it is marked as running, and its listener is spawned. -/
def launch (servers : Servers) : Servers :=
  { servers with
    launched := servers.launched + 1
    listening := Function.update servers.listening servers.launched true
    running := Function.update servers.running servers.launched true }

/-- A server that is replaced in the slot is dropped. That ends an FTP server, whose listener
waits for a signal that only the server can give; the listener of an SFTP server has a copy of it. -/
def store (servers : Servers) (service : Service) (server : Nat) : Servers :=
  { servers with
    slot := some server
    told := match service, servers.slot with
      | .ftp, some replaced => Function.update servers.told replaced true
      | _, _ => servers.told }

def tell (servers : Servers) (server : Nat) : Servers :=
  { servers with
    told := Function.update servers.told server true
    running := Function.update servers.running server false }

def isRunning (servers : Servers) : Bool := servers.slot.any servers.running

end Servers

def BackendState.put (state : BackendState) (service : Service) (servers : Servers) : BackendState :=
  { state with servers := Function.update state.servers service servers }

/-- One section of a call. `works` says whether starting a server does. -/
def act (_ : Nat) (works : Bool) (state : BackendState) : Piece → List Piece → Option (BackendState × List Piece)
  | .check service, rest =>
      if (state.servers service).slot.isSome then some (state, rest) else some (state, .launch service :: rest)
  | .launch service, rest =>
      if works then
        some (state.put service (state.servers service).launch,
          .store service (state.servers service).launched :: rest)
      else some (state, rest)
  | .store service server, rest => some (state.put service ((state.servers service).store service server), rest)
  | .take service, rest =>
      match (state.servers service).slot with
      | some server =>
          some (state.put service { state.servers service with slot := none }, .tell service server :: rest)
      | none => some (state, rest)
  | .tell service server, rest => some (state.put service ((state.servers service).tell server), rest)
  | .flags, rest => some (state, .consult .ftp (state.enabled .ftp) :: .consult .sftp (state.enabled .sftp) :: rest)
  | .consult service enabled, rest =>
      if enabled && !(state.servers service).isRunning then some (state, .check service :: rest)
      else if !enabled && (state.servers service).isRunning then some (state, .take service :: rest)
      else some (state, rest)
  | .setEnabled service enabled, rest =>
      some ({ state with enabled := Function.update state.enabled service enabled }, rest)
  | .exit service server, rest =>
      if (state.servers service).listening server then
        some (state.put service { state.servers service with
          listening := Function.update (state.servers service).listening server false }, rest)
      else none
  | .report service server, rest =>
      some (state.put service { state.servers service with
        running := Function.update (state.servers service).running server false }, rest)

/-! The calls on their own. -/

namespace BackendState

/-- `start_ftp` and `start_sftp`: whether the answer is a success. -/
def start (state : BackendState) (service : Service) (works : Bool) : Bool × BackendState :=
  if (state.servers service).slot.isSome then (true, state)
  else if works then
    (true, state.put service ((state.servers service).launch.store service (state.servers service).launched))
  else (false, state)

def stop (state : BackendState) (service : Service) : BackendState :=
  match (state.servers service).slot with
  | some server => state.put service ({ state.servers service with slot := none }.tell server)
  | none => state

/-- What `apply_enabled_flags` does about one service. -/
def apply (state : BackendState) (service : Service) (enabled works : Bool) : BackendState :=
  if enabled && !(state.servers service).isRunning then (state.start service works).2
  else if !enabled && (state.servers service).isRunning then state.stop service
  else state

def applyEnabledFlags (state : BackendState) (works : Service → Bool) : BackendState :=
  (state.apply .ftp (state.enabled .ftp) (works .ftp)).apply .sftp (state.enabled .sftp) (works .sftp)

end BackendState

def step : Parties BackendState Piece → Move Call Bool → Option (Parties BackendState Piece) := Parties.step program act

def BackendState.initial (enabled : Service → Bool) : BackendState := ⟨enabled, fun _ => .none⟩

section Live
variable (parties : Parties BackendState Piece)

/-- A server was started and nobody has told it to stop. -/
def Live (state : BackendState) (service : Service) (server : Nat) : Prop :=
  server < (state.servers service).launched ∧ (state.servers service).told server = false

/-- The next thing some call does is to store this server, or to tell it to stop. -/
def InHand (service : Service) (server : Nat) : Prop :=
  ∃ party piece, parties.At party piece ∧ (piece = .store service server ∨ piece = .tell service server)

/-- Every live server is in the slot or in the hand of a call. -/
def Accounted : Prop :=
  ∀ service server, Live parties.shared service server →
    (parties.shared.servers service).slot = some server ∨ InHand parties service server

def Careful : Move Call Bool → Prop
  | .arrive _ _ => True
  | .go party _ => ∀ server, parties.At party (.store .sftp server) → (parties.shared.servers .sftp).slot = none

variable {parties}

/-- A server in the hand of one call stays there during another step. -/
theorem InHand.keep {service : Service} {server party : Nat} {piece : Piece} {rest left : List Piece}
    {shared : BackendState} (held : InHand parties service server) (todo : parties.todo party = piece :: rest)
    (unstored : piece ≠ .store service server) (untold : piece ≠ .tell service server) :
    InHand ⟨shared, Function.update parties.todo party left⟩ service server := by
  obtain ⟨other, next, waits, which⟩ := held
  have apart : other ≠ party := by
    rintro rfl
    rw [Parties.At, todo] at waits
    cases waits
    exact which.elim unstored untold
  exact ⟨other, next, Parties.at_update apart waits, which⟩

/-- A step that stores no server, tells none to stop and leaves the slots and what was launched
and told as they are. -/
theorem Accounted.quiet {party : Nat} {piece : Piece} {rest left : List Piece} {shared : BackendState}
    (accounted : Accounted parties) (todo : parties.todo party = piece :: rest)
    (unstored : ∀ service server, piece ≠ .store service server)
    (untold : ∀ service server, piece ≠ .tell service server)
    (same : ∀ service, (shared.servers service).slot = (parties.shared.servers service).slot ∧
      (shared.servers service).launched = (parties.shared.servers service).launched ∧
      (shared.servers service).told = (parties.shared.servers service).told) :
    Accounted ⟨shared, Function.update parties.todo party left⟩ := by
  intro service server live
  obtain ⟨slot, launched, told⟩ := same service
  rw [Live, launched, told] at live
  rw [slot]
  exact (accounted service server live).imp_right fun held =>
    held.keep todo (unstored service server) (untold service server)

@[simp] theorem servers_put_self (state : BackendState) (service : Service) (servers : Servers) :
    (state.put service servers).servers service = servers := by
  simp [BackendState.put]

theorem servers_put_of_ne (state : BackendState) {service other : Service} (servers : Servers) (apart : other ≠ service) :
    (state.put service servers).servers other = state.servers other := by
  simp [BackendState.put, apart]

/-- A step on one service that stores none of its servers and tells none to stop. -/
theorem Accounted.put {party : Nat} {piece : Piece} {rest left : List Piece} {service : Service} {servers : Servers}
    (accounted : Accounted parties) (todo : parties.todo party = piece :: rest)
    (about : ∀ other server, piece = .store other server ∨ piece = .tell other server → other = service)
    (own : ∀ server, server < servers.launched → servers.told server = false → servers.slot = some server ∨
      InHand ⟨parties.shared.put service servers, Function.update parties.todo party left⟩ service server) :
    Accounted ⟨parties.shared.put service servers, Function.update parties.todo party left⟩ := by
  intro other server live
  by_cases same : other = service
  · subst other
    simp only [Live, servers_put_self] at live ⊢
    exact own server live.1 live.2
  · simp only [Live, servers_put_of_ne _ _ same] at live ⊢
    refine (accounted other server live).imp_right fun held => held.keep todo ?_ ?_
    · exact fun stores => same (about other server (.inl stores))
    · exact fun tells => same (about other server (.inr tells))

theorem inHand_self {shared : BackendState} {todo : Nat → List Piece} {party server : Nat} {service : Service}
    {piece : Piece} {rest : List Piece} (which : piece = .store service server ∨ piece = .tell service server) :
    InHand ⟨shared, Function.update todo party (piece :: rest)⟩ service server :=
  ⟨party, piece, by simp [Parties.At], which⟩

/-- A server still live after a store was live before, and no FTP server that was replaced. -/
theorem untold_of_store {servers : Servers} {service : Service} {stored server : Nat}
    (untold : (servers.store service stored).told server = false) :
    servers.told server = false ∧ (service = .ftp → servers.slot ≠ some server) := by
  cases service with
  | sftp => exact ⟨untold, by simp⟩
  | ftp =>
      cases filled : servers.slot with
      | none =>
          simp only [Servers.store, filled] at untold
          exact ⟨untold, by simp⟩
      | some replaced =>
          simp only [Servers.store, filled] at untold
          have apart : server ≠ replaced := by
            rintro rfl
            simp at untold
          exact ⟨by simpa [apart] using untold, fun _ same => apart (Option.some.inj same).symm⟩

theorem step_accounted (parties : Parties BackendState Piece) (move : Move Call Bool) (next : Parties BackendState Piece)
    (accounted : Accounted parties) (careful : Careful parties move) (taken : step parties move = some next) :
    Accounted next := by
  cases move with
  | arrive party call =>
      obtain ⟨free, rfl⟩ := Parties.step_arrive.mp taken
      intro service server live
      refine (accounted service server live).imp_right ?_
      rintro ⟨other, piece, waits, which⟩
      have apart : other ≠ party := by
        rintro rfl
        simp [Parties.At, free] at waits
      exact ⟨other, piece, Parties.at_update apart waits, which⟩
  | go party works =>
      obtain ⟨piece, rest, shared, left, todo, acted, rfl⟩ := Parties.step_go.mp taken
      cases piece with
      | check service =>
          have same : shared = parties.shared := by
            simp only [act] at acted
            split at acted <;> cases acted <;> rfl
          subst shared
          exact accounted.quiet todo (by simp) (by simp) fun _ => ⟨rfl, rfl, rfl⟩
      | launch service =>
          simp only [act] at acted
          split at acted
          · cases acted
            refine accounted.put todo (by simp) fun server launched untold => ?_
            -- the new server is to be stored by this call
            rcases Nat.lt_succ_iff_lt_or_eq.mp launched with old | rfl
            · exact (accounted service server ⟨old, untold⟩).imp_right fun held => held.keep todo (by simp) (by simp)
            · exact .inr (inHand_self (.inl rfl))
          · cases acted
            exact accounted.quiet todo (by simp) (by simp) fun _ => ⟨rfl, rfl, rfl⟩
      | store service stored =>
          cases acted
          refine accounted.put todo (by simp [eq_comm]) fun server launched untold => ?_
          by_cases own : server = stored
          · exact .inl (congrArg some own.symm)
          · obtain ⟨before, unreplaced⟩ := untold_of_store untold
            rcases accounted service server ⟨launched, before⟩ with inSlot | held
            · -- an FTP server that is replaced is told, and no SFTP server is
              cases service with
              | ftp => exact absurd inSlot (unreplaced rfl)
              | sftp =>
                  have empty := careful stored (by rw [Parties.At, todo]; rfl)
                  cases empty.symm.trans inSlot
            · exact .inr (held.keep todo (by simpa using Ne.symm own) (by simp))
      | take service =>
          simp only [act] at acted
          split at acted
          · next slotted filled =>
              cases acted
              refine accounted.put todo (by simp) fun server launched untold => ?_
              rcases accounted service server ⟨launched, untold⟩ with inSlot | held
              · cases filled.symm.trans inSlot
                exact .inr (inHand_self (.inr rfl))
              · exact .inr (held.keep todo (by simp) (by simp))
          · cases acted
            exact accounted.quiet todo (by simp) (by simp) fun _ => ⟨rfl, rfl, rfl⟩
      | tell service stopped =>
          cases acted
          refine accounted.put todo (by simp [eq_comm]) fun server launched untold => ?_
          have other : server ≠ stopped := by
            rintro rfl
            simp [Servers.tell] at untold
          have before : (parties.shared.servers service).told server = false := by
            simpa [Servers.tell, other] using untold
          exact (accounted service server ⟨launched, before⟩).imp_right fun held =>
            held.keep todo (by simp) (by simpa using Ne.symm other)
      | flags =>
          cases acted
          exact accounted.quiet todo (by simp) (by simp) fun _ => ⟨rfl, rfl, rfl⟩
      | consult service enabled =>
          have same : shared = parties.shared := by
            simp only [act] at acted
            split at acted
            · cases acted
              rfl
            · split at acted <;> cases acted <;> rfl
          subst shared
          exact accounted.quiet todo (by simp) (by simp) fun _ => ⟨rfl, rfl, rfl⟩
      | setEnabled service enabled =>
          cases acted
          exact accounted.quiet todo (by simp) (by simp) fun _ => ⟨rfl, rfl, rfl⟩
      | exit service server =>
          simp only [act] at acted
          split at acted
          · cases acted
            refine accounted.put todo (by simp) fun server launched untold => ?_
            exact (accounted service server ⟨launched, untold⟩).imp_right fun held => held.keep todo (by simp) (by simp)
          · cases acted
      | report service server =>
          cases acted
          refine accounted.put todo (by simp) fun server launched untold => ?_
          exact (accounted service server ⟨launched, untold⟩).imp_right fun held => held.keep todo (by simp) (by simp)

/-- A stop leaves no live server but those that were not in the slot. -/
theorem live_stop {state : BackendState} {service : Service} {server : Nat}
    (live : Live (state.stop service) service server) :
    Live state service server ∧ (state.servers service).slot ≠ some server := by
  unfold BackendState.stop at live
  cases filled : (state.servers service).slot with
  | none =>
      simp only [filled] at live
      exact ⟨live, by simp⟩
  | some stopped =>
      simp only [filled, Live, servers_put_self, Servers.tell] at live
      have apart : server ≠ stopped := by
        rintro rfl
        simp at live
      exact ⟨⟨live.1, by simpa [apart] using live.2⟩, fun same => apart (Option.some.inj same).symm⟩

/-- In every careful run, whenever no call has a server of the service to store, or one it has taken to tell to
stop, a live server is the one in the slot. Once all calls are over, a stop leaves no live server. -/
theorem at_most_one_live (enabled : Service → Bool) (moves : List (Move Call Bool))
    (final : Parties BackendState Piece) (service : Service)
    (careful : Guarded step Careful (.idle (.initial enabled)) moves)
    (reached : exec step (.idle (.initial enabled)) moves = some final) :
    ((∀ party server, ¬ final.At party (.store service server)) →
      (∀ party server, ¬ final.At party (.tell service server)) →
      ∀ server, Live final.shared service server → (final.shared.servers service).slot = some server) ∧
    (final.Answered → ∀ server, ¬ Live (final.shared.stop service) service server) := by
  have accounted : Accounted final := by
    refine exec_invariant step_accounted ?_ careful reached
    intro service server live
    exact absurd live.1 (Nat.not_lt_zero server)
  refine ⟨fun stored told server live => ?_, fun answered server live => ?_⟩
  · rcases accounted service server live with inSlot | ⟨party, piece, waits, rfl | rfl⟩
    · exact inSlot
    · exact absurd waits (stored party server)
    · exact absurd waits (told party server)
  · obtain ⟨before, emptied⟩ := live_stop live
    rcases accounted service server before with inSlot | ⟨party, piece, waits, -⟩
    · exact emptied inSlot
    · exact answered.not_at party piece waits

end Live

section Alone
variable {state : BackendState} {party : Nat} {todo : Nat → List Piece} {rest : List Piece}

theorem put_put (state : BackendState) (service : Service) (first second : Servers) :
    (state.put service first).put service second = state.put service second := by
  simp [BackendState.put]

theorem check_runsTo (service : Service) (works : Bool) :
    Parties.RunsTo program act party ⟨state, Function.update todo party (.check service :: rest)⟩
      ⟨(state.start service works).2, Function.update todo party rest⟩ := by
  unfold BackendState.start
  cases filled : (state.servers service).slot.isSome with
  | true => exact .next works (if_pos filled) (.refl party _)
  | false =>
      refine .next works (if_neg (by simp [filled])) ?_
      cases works with
      | false => exact .next false rfl (.refl party _)
      | true =>
          refine .next true rfl (.next true rfl ?_)
          rw [put_put, servers_put_self]
          exact .refl party _

theorem take_runsTo (service : Service) :
    Parties.RunsTo program act party ⟨state, Function.update todo party (.take service :: rest)⟩
      ⟨state.stop service, Function.update todo party rest⟩ := by
  unfold BackendState.stop
  cases filled : (state.servers service).slot with
  | none => exact .next true (by simp only [act, filled]) (.refl party _)
  | some server =>
      have takes : act party true state (.take service) rest = some
          (state.put service { state.servers service with slot := none }, .tell service server :: rest) := by
        simp only [act, filled]
      refine .next true takes (.next true rfl ?_)
      rw [put_put, servers_put_self]
      exact .refl party _

theorem consult_runsTo (service : Service) (enabled works : Bool) :
    Parties.RunsTo program act party ⟨state, Function.update todo party (.consult service enabled :: rest)⟩
      ⟨state.apply service enabled works, Function.update todo party rest⟩ := by
  unfold BackendState.apply
  by_cases starts : (enabled && !(state.servers service).isRunning) = true
  · rw [if_pos starts]
    exact .next true (if_pos starts) (check_runsTo service works)
  · rw [if_neg starts]
    by_cases stops : (!enabled && (state.servers service).isRunning) = true
    · rw [if_pos stops]
      exact .next true (by simp only [act, if_neg starts, if_pos stops]) (take_runsTo service)
    · rw [if_neg stops]
      exact .next true (by simp only [act, if_neg starts, if_neg stops]) (.refl party _)

/-- What the calls of the backend do when nothing comes between their sections. -/
def Call.alone (works : Service → Bool) (state : BackendState) : Call → Option BackendState
  | .start service => some (state.start service (works service)).2
  | .stop service => some (state.stop service)
  | .restart service => some ((state.stop service).start service (works service)).2
  | .stopAll => some ((state.stop .ftp).stop .sftp)
  | .applyEnabledFlags => some (state.applyEnabledFlags works)
  | .setEnabled _ _ | .exits _ _ => none

theorem finished_idle (state : BackendState) (party : Nat) :
    (⟨state, Function.update (fun _ => []) party []⟩ : Parties BackendState Piece) = .idle state := by
  refine Parties.Answered.eq_idle fun other => ?_
  by_cases same : other = party <;> simp [same]

theorem alone_runsTo (works : Service → Bool) (call : Call) {after : BackendState}
    (alone : call.alone works state = some after) :
    Parties.RunsTo program act party ⟨state, Function.update (fun _ => []) party (program call)⟩ (.idle after) := by
  rw [← finished_idle after party]
  cases call with
  | start service =>
      cases alone
      exact check_runsTo service (works service)
  | stop service =>
      cases alone
      exact take_runsTo service
  | restart service =>
      cases alone
      exact (take_runsTo service).trans (check_runsTo service (works service))
  | stopAll =>
      cases alone
      exact (take_runsTo .ftp).trans (take_runsTo .sftp)
  | applyEnabledFlags =>
      cases alone
      exact .next true rfl ((consult_runsTo .ftp _ (works .ftp)).trans (consult_runsTo .sftp _ (works .sftp)))
  | setEnabled | exits => cases alone

end Alone

section Listener
variable (state : BackendState) (service : Service)

def Listening : Prop :=
  ∃ server, (state.servers service).slot = some server ∧ (state.servers service).listening server = true

def Stale : Prop :=
  ∃ server, (state.servers service).slot = some server ∧ (state.servers service).listening server = false

def Launches (after : BackendState) : Prop := (after.servers service).launched = (state.servers service).launched + 1

/-- A start that succeeds finds a listener or launches one, and applying the flags launches one
for a service that is enabled and has none, when servers can be started. -/
def StartMeansListener : Prop :=
  (∀ works, (state.start service works).1 = true →
    Listening state service ∨ Launches state service (state.start service works).2) ∧
  (state.enabled service = true → ¬ Listening state service →
    ∀ works : Service → Bool, works service = true → Launches state service (state.applyEnabledFlags works))

variable {state service}

theorem servers_start_of_ne {other : Service} (works : Bool) (apart : other ≠ service) :
    ((state.start service works).2.servers other) = state.servers other := by
  unfold BackendState.start
  split
  · rfl
  · split
    · exact servers_put_of_ne _ _ apart
    · rfl

theorem servers_stop_of_ne {other : Service} (apart : other ≠ service) :
    ((state.stop service).servers other) = state.servers other := by
  unfold BackendState.stop
  split
  · exact servers_put_of_ne _ _ apart
  · rfl

theorem servers_apply_of_ne {other : Service} (enabled works : Bool) (apart : other ≠ service) :
    ((state.apply service enabled works).servers other) = state.servers other := by
  unfold BackendState.apply
  split
  · exact servers_start_of_ne works apart
  · split
    · exact servers_stop_of_ne apart
    · rfl

theorem start_launches (empty : (state.servers service).slot = none) :
    Launches state service (state.start service true).2 := by
  simp [Launches, BackendState.start, empty, Servers.store, Servers.launch]

theorem start_filled {server : Nat} (filled : (state.servers service).slot = some server) (works : Bool) :
    state.start service works = (true, state) := by
  simp [BackendState.start, filled]

/-- What is done about a service is up to its own servers. -/
theorem servers_apply_congr {other : BackendState} (same : other.servers service = state.servers service)
    (enabled works : Bool) :
    (other.apply service enabled works).servers service = (state.apply service enabled works).servers service := by
  unfold BackendState.apply BackendState.start BackendState.stop
  rw [same]
  cases enabled <;> cases (state.servers service).isRunning <;> cases (state.servers service).slot <;> cases works <;>
    simp [same]

theorem servers_applyEnabledFlags (works : Service → Bool) :
    (state.applyEnabledFlags works).servers service =
      (state.apply service (state.enabled service) (works service)).servers service := by
  unfold BackendState.applyEnabledFlags
  cases service with
  | ftp => exact servers_apply_of_ne _ _ (by simp)
  | sftp => exact servers_apply_congr (servers_apply_of_ne _ _ (by simp)) _ _

/-- The start finds the slot filled, succeeds and launches nothing. -/
theorem Stale.not_startMeansListener (stale : Stale state service) : ¬ StartMeansListener state service := by
  rintro ⟨starts, -⟩
  obtain ⟨server, filled, ended⟩ := stale
  have kept := start_filled filled true
  rcases starts true (by rw [kept]) with ⟨other, same, listening⟩ | launched
  · cases filled.symm.trans same
    cases ended.symm.trans listening
  · rw [kept] at launched
    exact absurd launched (Nat.ne_of_lt (Nat.lt_succ_self _))

/-- A start means a listener exactly when the slot holds no server whose listener has ended. -/
theorem start_means_listener_iff (state : BackendState) (service : Service) :
    StartMeansListener state service ↔ ¬ Stale state service := by
  constructor
  · exact fun means stale => stale.not_startMeansListener means
  · intro fresh
    cases filled : (state.servers service).slot with
    | some server =>
        have listening : Listening state service := by
          refine ⟨server, filled, ?_⟩
          by_contra ended
          exact fresh ⟨server, filled, by simpa using ended⟩
        exact ⟨fun _ _ => .inl listening, fun _ unheard => absurd listening unheard⟩
    | none =>
        refine ⟨fun works answered => ?_, fun enabled _ works granted => ?_⟩
        · cases works with
          | true => exact .inr (start_launches filled)
          | false => simp [BackendState.start, filled] at answered
        · have stopped : (state.servers service).isRunning = false := by simp [Servers.isRunning, filled]
          have started : state.apply service true true = (state.start service true).2 := by
            simp [BackendState.apply, stopped]
          rw [Launches, servers_applyEnabledFlags, enabled, granted, started]
          exact start_launches filled

end Listener

section Runs

def bothEnabled : Parties BackendState Piece := .idle (.initial fun _ => true)

def oneStart : List (Move Call Bool) := [.arrive 0 (.start .sftp), .go 0 true, .go 0 true, .go 0 true]

theorem oneStart_careful : Guarded step Careful bothEnabled oneStart := by
  refine .cons trivial rfl (.cons ?_ rfl (.cons ?_ rfl (.cons ?_ rfl trivial)))
  · intro server waits
    simp [Parties.At, bothEnabled, Parties.idle, program] at waits
  · intro server waits
    simp [Parties.At, bothEnabled, Parties.idle, program] at waits
  · intro server waits
    rfl

theorem at_most_one_live_started : ∃ final, exec step bothEnabled oneStart = some final ∧
    ∀ server, ¬ Live (final.shared.stop .sftp) .sftp server := by
  refine ⟨_, rfl, (at_most_one_live (fun _ => true) oneStart _ .sftp oneStart_careful rfl).2 fun party => ?_⟩
  by_cases first : party = 0 <;> simp [Parties.idle, first]

/-- Two starts of the SFTP server, side by side: both find the slot empty, and the server that
is stored first is lost. -/
theorem sideBySide_run : ∃ final, exec step bothEnabled
    [.arrive 0 (.start .sftp), .arrive 1 (.start .sftp), .go 0 true, .go 1 true, .go 0 true, .go 1 true, .go 0 true,
      .go 1 true] = some final ∧ final.Answered ∧
    (final.shared.servers .sftp).slot = some 1 ∧ Live final.shared .sftp 0 := by
  refine ⟨_, rfl, fun party => ?_, rfl, by decide, rfl⟩
  by_cases first : party = 0 <;> by_cases second : party = 1 <;>
    simp [bothEnabled, Parties.idle, first, second]

theorem two_servers_live : ¬ ∀ (enabled : Service → Bool) (moves : List (Move Call Bool))
    (final : Parties BackendState Piece) (service : Service),
    exec step (.idle (.initial enabled)) moves = some final →
    ((∀ party server, ¬ final.At party (.store service server)) →
      ∀ server, Live final.shared service server → (final.shared.servers service).slot = some server) ∧
    (final.Answered → ∀ server, ¬ Live (final.shared.stop service) service server) := by
  intro accounted
  obtain ⟨final, reached, answered, inSlot, live⟩ := sideBySide_run
  have same := (accounted (fun _ => true) _ final .sftp reached).1 (fun party server => answered.not_at party _) 0 live
  cases inSlot.symm.trans same

/-- A start whose listener ends, as it does when the address is in use: the next start answers
with a success and launches nothing. -/
theorem endedListener_run : ∃ final, exec step bothEnabled
    [.arrive 0 (.start .ftp), .go 0 true, .go 0 true, .go 0 true, .arrive 1 (.exits .ftp 0), .go 1 true,
      .go 1 true] = some final ∧ final.Answered ∧ Stale final.shared .ftp ∧
    (final.shared.servers .ftp).isRunning = false := by
  refine ⟨_, rfl, fun party => ?_, ⟨0, rfl, rfl⟩, rfl⟩
  by_cases first : party = 0 <;> by_cases second : party = 1 <;>
    simp [bothEnabled, Parties.idle, first, second]

theorem start_without_listener : ¬ ∀ (enabled : Service → Bool) (moves : List (Move Call Bool))
    (final : Parties BackendState Piece) (service : Service),
    exec step (.idle (.initial enabled)) moves = some final → final.Answered →
    StartMeansListener final.shared service := by
  intro means
  obtain ⟨final, reached, answered, stale, -⟩ := endedListener_run
  exact stale.not_startMeansListener (means (fun _ => true) _ final .ftp reached answered)

end Runs

end Wftpd.Daemon.Services
