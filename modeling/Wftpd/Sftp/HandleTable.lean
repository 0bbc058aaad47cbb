import Wftpd.Common.Digits
import Wftpd.Sftp.Changes

/-! The handles of a session: which are live and what they are bound to.

Handles are numbered by a counter that only successful opens advance, so no
handle text comes twice before the counter wraps.
-/

set_option autoImplicit false

namespace Wftpd.Sftp
open Wftpd.Posix Wftpd.Common Wftpd.Library

def Request.opens : Request → Bool
  | .open _ _ _ | .opendir _ _ => true
  | _ => false

def Request.named : Request → Option Text
  | .close _ handle | .read _ handle _ _ | .write _ handle _ _ | .fstat _ handle | .fsetstat _ handle _
  | .readdir _ handle => some handle
  | _ => none

/-- The request takes this entry for one of the other kind, or there is none. -/
def Request.misuses : Request → Option OpenEntry → Bool
  | _, none => true
  | .read _ _ _ _, some (.dir _) | .write _ _ _ _, some (.dir _) | .fstat _ _, some (.dir _) => true
  | .readdir _ _, some (.file _) => true
  | _, _ => false

def givenHandle : Request → Except StatusCode Reply → Option Text
  | .open _ _ _, .ok (.handle _ handle) => some handle
  | .opendir _ _, .ok (.handle _ handle) => some handle
  | _, _ => none

def endedHandle : Request → Except StatusCode Reply → Option Text
  | .close _ handle, .ok _ => some handle
  | _, _ => none

/-- What a request opens: the file or the directory that its path leads to. -/
def Opens (input : Input) (session : Session) (entry : OpenEntry) : Prop :=
  match input.2 with
  | .open _ filename pflags => ∃ path file fs, resolve session.homeDir filename = .ok path ∧
      FileSystem.openFile input.1.os pflags.options path session.fs = (.ok file, fs) ∧
      entry = .file ⟨file, pflags.wantsWrite⟩
  | .opendir _ filename => ∃ path ino names, resolve session.homeDir filename = .ok path ∧
      session.fs.readDir input.1.os path = .ok (ino, names) ∧ entry = .dir ⟨ino, names⟩
  | _ => False

/-- The same file, or the same directory stream read further. -/
def OpenEntry.Remains : OpenEntry → OpenEntry → Prop
  | .file first, .file second => second = first
  | .dir first, .dir second => second.ino = first.ino ∧ second.pending <:+ first.pending
  | _, _ => False

theorem OpenEntry.Remains.refl (entry : OpenEntry) : entry.Remains entry := by
  cases entry with
  | file handle => exact rfl
  | dir handle => exact ⟨rfl, List.suffix_rfl⟩

theorem OpenEntry.Remains.trans {first second third : OpenEntry} (left : first.Remains second)
    (right : second.Remains third) : first.Remains third := by
  match first, second, third, left, right with
  | .file _, .file _, .file _, left, right => exact Eq.trans right left
  | .dir _, .dir _, .dir _, left, right => exact ⟨right.1.trans left.1, right.2.trans left.2⟩

section Step
variable {env : RequestEnv} {session : Session}

def Session.table (session : Session) : AList (fun _ : Text => OpenEntry) × UInt64 :=
  (session.handles, session.nextHandle)

/-- What answering a request has done to the table. -/
inductive TableStep (input : Input) (session : Session) (answer : Except StatusCode Reply) (after : Session) : Prop
  | keeps (same : after.table = session.table) (failed : input.2.opens = true → ∃ why, answer = .error why)
      (notEnded : endedHandle input.2 answer = none)
  | opens {entry : OpenEntry} (opened : Opens input session entry)
      (given : givenHandle input.2 answer = some (handleText session.nextHandle))
      (changed : after.table = (session.handles.insert (handleText session.nextHandle) entry, session.nextHandle + 1))
  | closes {handle : Text} (live : (session.handles.lookup handle).isSome = true)
      (named : input.2.named = some handle) (notOpens : input.2.opens = false)
      (ended : endedHandle input.2 answer = some handle)
      (changed : after.table = (session.handles.erase handle, session.nextHandle))
  | lists {handle : Text} {dir : DirHandle} {left : List Name}
      (found : session.handles.lookup handle = some (.dir dir)) (suffix : left <:+ dir.pending)
      (named : input.2.named = some handle) (notOpens : input.2.opens = false)
      (notEnded : endedHandle input.2 answer = none)
      (changed : after.table = (session.handles.insert handle (.dir { dir with pending := left }), session.nextHandle))

theorem givenHandle_none {request : Request} {answer : Except StatusCode Reply}
    (failed : request.opens = true → ∃ why, answer = .error why) : givenHandle request answer = none := by
  cases request with
  | «open» _ _ _ | opendir _ _ =>
      obtain ⟨why, rfl⟩ := failed rfl
      rfl
  | _ => rfl

/-- Where the next number is not in use, the first try is taken. -/
theorem insertHandle_run (free : session.handles.lookup (handleText session.nextHandle) = none) (entry : OpenEntry) :
    insertHandle entry session = (.ok (handleText session.nextHandle), { session with
      nextHandle := session.nextHandle + 1
      handles := session.handles.insert (handleText session.nextHandle) entry }) := by
  have first : nextHandleId session =
      (.ok (handleText session.nextHandle), { session with nextHandle := session.nextHandle + 1 }) := by
    have zero : session.nextHandle + UInt64.ofNat 0 = session.nextHandle := by simp
    have tried : ((List.range (session.handles.entries.length + 1)).find? fun skip =>
        (session.handles.lookup (handleText (session.nextHandle + UInt64.ofNat skip))).isNone) = some 0 := by
      rw [List.range_succ_eq_map, List.find?_cons_of_pos]
      rw [zero, free]
      rfl
    simp only [nextHandleId, tried, Option.getD_some, zero]
  rw [insertHandle, Action.bind_run_ok first]
  rfl

theorem takeEntries_suffix (streamError : Nat → Option ErrorKind) (more taken : Nat) (pending : List Name) :
    (takeEntries streamError more taken pending).2 <:+ pending := by
  induction more generalizing taken pending with
  | zero => exact List.suffix_rfl
  | succ more ih =>
      unfold takeEntries
      split
      · exact List.suffix_rfl
      · cases pending with
        | nil => exact List.suffix_rfl
        | cons name rest => exact (ih (taken + 1) rest).trans (List.suffix_cons name rest)

theorem open_table (free : session.handles.lookup (handleText session.nextHandle) = none) (id : UInt32)
    (filename : Text) (pflags : OpenFlags) :
    TableStep (env, .open id filename pflags) session («open» env id filename pflags session).1
      («open» env id filename pflags session).2 := by
  let final := fun result : Except StatusCode Reply × Session =>
    TableStep (env, .open id filename pflags) session result.1 result.2
  have failed : ∀ why after, after.table = session.table →
      TableStep (env, .open id filename pflags) session (.error why) after :=
    fun why _ same => .keeps same (fun _ => ⟨why, rfl⟩) rfl
  have audited : Leaves Session.table (requireAudited env pflags.granted "OPEN".toList filename) :=
    leaves_requireAudited (fun _ _ => rfl) _ _ _
  apply Action.Leaves.followed audited final failed
  intro _ after granted _
  obtain ⟨-, rfl⟩ := requireAudited_ok granted
  apply (Action.still_query _).followed final fun why => failed why _ rfl
  intro _ _
  apply (Action.still_query _).followed final fun why => failed why _ rfl
  intro path accepted
  have called : Leaves Session.table (sys (FileSystem.openFile env.os pflags.options path)) :=
    leaves_sys (fun _ _ => rfl) _
  apply Action.Leaves.followed called final failed
  intro file opened ran _
  obtain ⟨succeeded, shape⟩ := sys_ok ran
  have stillFree : opened.handles.lookup (handleText opened.nextHandle) = none := by
    rw [shape]
    exact free
  rw [Action.bind_run_ok (insertHandle_run stillFree _)]
  refine .opens ⟨path, file, _, (Prod.mk.inj accepted).1, succeeded, rfl⟩ ?_ ?_ <;>
    · rw [shape]
      rfl

theorem opendir_table (free : session.handles.lookup (handleText session.nextHandle) = none) (id : UInt32)
    (path : Text) : TableStep (env, .opendir id path) session
      (opendir env id path session).1 (opendir env id path session).2 := by
  let final := fun result : Except StatusCode Reply × Session =>
    TableStep (env, .opendir id path) session result.1 result.2
  have failed : ∀ why after, after.table = session.table →
      TableStep (env, .opendir id path) session (.error why) after :=
    fun why _ same => .keeps same (fun _ => ⟨why, rfl⟩) rfl
  apply (Action.still_query _).followed final fun why => failed why _ rfl
  intro _ _
  apply (Action.still_query _).followed final fun why => failed why _ rfl
  intro resolved accepted
  have called : Leaves Session.table (sys (Action.query fun fs => fs.readDir env.os resolved)) :=
    leaves_sys (fun _ _ => rfl) _
  apply Action.Leaves.followed called final failed
  rintro ⟨ino, names⟩ opened ran _
  obtain ⟨succeeded, shape⟩ := sys_ok ran
  have stillFree : opened.handles.lookup (handleText opened.nextHandle) = none := by
    rw [shape]
    exact free
  simp only
  rw [Action.bind_run_ok (insertHandle_run stillFree _)]
  refine .opens ⟨resolved, ino, names, (Prod.mk.inj accepted).1, (Prod.mk.inj succeeded).1, rfl⟩ ?_ ?_ <;>
    · rw [shape]
      rfl

theorem close_table (id : UInt32) (handle : Text) :
    TableStep (env, .close id handle) session (close id handle session).1 (close id handle session).2 := by
  apply (Action.still_query _).followed fun result : Except StatusCode Reply × Session =>
    TableStep (env, .close id handle) session result.1 result.2
  · exact fun why => .keeps rfl (fun opens => by cases opens) rfl
  intro _ found
  refine .closes ?_ rfl rfl rfl rfl
  by_contra missing
  simp [missing] at found

theorem dirHandle_ok {handle : Text} {dir : DirHandle} {after : Session}
    (found : dirHandle handle session = (.ok dir, after)) : session.handles.lookup handle = some (.dir dir) := by
  have answer := congrArg Prod.fst found
  simp only [dirHandle, Action.query_run] at answer
  split at answer
  · next listed =>
      cases answer
      exact listed
  · cases answer

theorem readdir_table (id : UInt32) (handle : Text) :
    TableStep (env, .readdir id handle) session (readdir env id handle session).1
      (readdir env id handle session).2 := by
  apply (Action.still_query _).followed fun result : Except StatusCode Reply × Session =>
    TableStep (env, .readdir id handle) session result.1 result.2
  · exact fun why => .keeps rfl (fun opens => by cases opens) rfl
  intro dir found
  have read : (nextEntries env handle dir session).2.table = (session.handles.insert handle
      (.dir { dir with pending := (takeEntries env.streamError batch 0 dir.pending).2 }), session.nextHandle) := rfl
  have rest : ∀ entries, Action.Still (do
      Action.check (entries ≠ []) .eof
      let files ← Action.read fun session => entries.map (listEntry env session.fs dir.ino)
      return Reply.name id files : Handled Reply) := fun entries =>
    (Action.still_check _ _).bind fun _ => (Action.still_read _).bind fun _ => Action.still_pure _
  exact .lists (dirHandle_ok found) (takeEntries_suffix _ _ _ _) rfl rfl rfl
    ((congrArg Session.table (Action.Still.before rest)).trans read)

theorem untabled {request : Request} (other : request.usesTable = false) :
    request.opens = false ∧ ∀ answer, endedHandle request answer = none := by
  cases request with
  | «open» _ _ _ | opendir _ _ | close _ _ | readdir _ _ => cases other
  | _ => exact ⟨rfl, fun _ => rfl⟩

theorem sessionStep_table (digests : Digests) (input : Input) 
    (free : session.handles.lookup (handleText session.nextHandle) = none) :
    TableStep input session (sessionStep digests session input).1 (sessionStep digests session input).2 := by
  obtain ⟨env, request⟩ := input
  cases touches : request.usesTable with
  | false =>
      have kept : Leaves Session.table (handleRequest digests env request) :=
        handleRequest_leaves (fun _ _ => rfl) (fun _ _ => rfl) (fun _ _ => rfl) digests env touches
      refine .keeps (kept session) (fun opens => ?_) ((untabled touches).2 _)
      exact absurd opens (by simp [(untabled touches).1])
  | true =>
      cases request with
      | «open» id filename pflags => exact open_table free id filename pflags
      | opendir id path => exact opendir_table free id path
      | close id handle => exact close_table id handle
      | readdir id handle => exact readdir_table id handle
      | _ => cases touches

theorem opens_names_nothing {input : Input} {entry : OpenEntry} (opened : Opens input session entry) :
    input.2.opens = true ∧ input.2.named = none ∧ ∀ answer, endedHandle input.2 answer = none := by
  obtain ⟨env, request⟩ := input
  cases request with
  | «open» _ _ _ | opendir _ _ => exact ⟨rfl, rfl, fun _ => rfl⟩
  | _ => cases opened

theorem TableStep.remains {input : Input} {answer : Except StatusCode Reply} {after : Session}
    (step : TableStep input session answer after)
    (free : session.handles.lookup (handleText session.nextHandle) = none) {handle : Text} {entry : OpenEntry}
    (found : session.handles.lookup handle = some entry) (notEnded : endedHandle input.2 answer ≠ some handle) :
    ∃ later, after.handles.lookup handle = some later ∧ entry.Remains later := by
  cases step with
  | keeps same =>
      refine ⟨entry, ?_, .refl entry⟩
      rw [(Prod.mk.inj same).1, found]
  | opens _ _ changed =>
      refine ⟨entry, ?_, .refl entry⟩
      have other : handle ≠ handleText session.nextHandle := by
        rintro rfl
        rw [free] at found
        cases found
      rw [(Prod.mk.inj changed).1, AList.lookup_insert_ne other, found]
  | closes _ _ _ ended changed =>
      refine ⟨entry, ?_, .refl entry⟩
      have other : handle ≠ _ := fun same => notEnded (same ▸ ended)
      rw [(Prod.mk.inj changed).1, AList.lookup_erase_ne other, found]
  | @lists listed dir left there suffix _ _ _ changed =>
      rw [(Prod.mk.inj changed).1]
      by_cases same : handle = listed
      · subst handle
        rw [there] at found
        cases found
        exact ⟨_, AList.lookup_insert _, rfl, suffix⟩
      · exact ⟨entry, (AList.lookup_insert_ne same).trans found, .refl entry⟩

/-- An OPEN or OPENDIR returns the next handle or fails without touching the table. -/
theorem TableStep.opening {input : Input} {answer : Except StatusCode Reply} {after : Session}
    (step : TableStep input session answer after) (opens : input.2.opens = true) :
    (∃ why, answer = .error why) ∧ after.table = session.table ∨
      givenHandle input.2 answer = some (handleText session.nextHandle) := by
  cases step with
  | keeps same failed => exact .inl ⟨failed opens, same⟩
  | opens _ returns => exact .inr returns
  | closes _ _ notOpens => exact absurd opens (by simp [notOpens])
  | lists _ _ _ notOpens => exact absurd opens (by simp [notOpens])

theorem TableStep.apart {input : Input} {answer : Except StatusCode Reply} {after : Session}
    (step : TableStep input session answer after) {named other : Text} (names : input.2.named = some named)
    (apart : other ≠ named) : after.handles.lookup other = session.handles.lookup other := by
  cases step with
  | keeps same => rw [(Prod.mk.inj same).1]
  | opens opened =>
      rw [(opens_names_nothing opened).2.1] at names
      cases names
  | closes _ listed _ _ changed =>
      cases names.symm.trans listed
      rw [(Prod.mk.inj changed).1, AList.lookup_erase_ne apart]
  | lists _ _ listed _ _ changed =>
      cases names.symm.trans listed
      rw [(Prod.mk.inj changed).1, AList.lookup_insert_ne apart]

end Step

section Invariant
variable {session : Session}

def numbered (number : Nat) : Text := 'h' :: Nat.toDigits 16 number

theorem numbered_injective : Function.Injective numbered := by
  intro first second same
  exact toDigits_injective (by decide) (by decide) (List.cons.inj same).2

/-- These handles have been returned, these of them have been closed, and the table has the rest. -/
structure Tracked (given ended : List Text) (session : Session) : Prop where
  texts : given = (List.range' 1 given.length).map numbered
  counter : session.nextHandle.toNat = given.length + 1
  live : ∀ handle, (session.handles.lookup handle).isSome = true ↔ handle ∈ given ∧ handle ∉ ended
  returned : ∀ handle ∈ ended, handle ∈ given

theorem Tracked.nodup {given ended : List Text} (tracked : Tracked given ended session) : given.Nodup := by
  rw [tracked.texts]
  exact (List.nodup_range' 1).map numbered_injective

theorem Tracked.next {given ended : List Text} (tracked : Tracked given ended session) :
    handleText session.nextHandle = numbered (given.length + 1) := by
  rw [handleText, tracked.counter, numbered]

theorem Tracked.fresh {given ended : List Text} (tracked : Tracked given ended session) :
    handleText session.nextHandle ∉ given := by
  rw [tracked.next]
  intro member
  have listed : numbered (given.length + 1) ∈ (List.range' 1 given.length).map numbered := by
    rwa [← tracked.texts]
  obtain ⟨number, within, same⟩ := List.mem_map.mp listed
  have bound := (List.mem_range'_1.mp within).2
  have := numbered_injective same
  omega

theorem Tracked.free {given ended : List Text} (tracked : Tracked given ended session) :
    session.handles.lookup (handleText session.nextHandle) = none := by
  by_contra taken
  have live := (tracked.live _).mp (Option.isSome_iff_ne_none.mpr taken)
  exact tracked.fresh live.1

theorem Tracked.step {given ended : List Text} {input : Input} {answer : Except StatusCode Reply} {after : Session}
    (tracked : Tracked given ended session) (step : TableStep input session answer after)
    (few : (given ++ (givenHandle input.2 answer).toList).length < 2 ^ 64 - 1) :
    Tracked (given ++ (givenHandle input.2 answer).toList) (ended ++ (endedHandle input.2 answer).toList) after := by
  cases step with
  | keeps same failed notEnded =>
      obtain ⟨handles, counter⟩ := Prod.mk.inj same
      rw [givenHandle_none failed, notEnded, Option.toList_none, List.append_nil, List.append_nil]
      exact ⟨tracked.texts, by rw [counter, tracked.counter], by rw [handles]; exact tracked.live, tracked.returned⟩
  | @opens entry opened returns changed =>
      obtain ⟨handles, counter⟩ := Prod.mk.inj changed
      rw [returns, Option.toList_some, List.length_append, List.length_singleton] at few
      rw [returns, (opens_names_nothing opened).2.2, Option.toList_some, Option.toList_none, List.append_nil]
      -- a handle that was ended has been given, and the next number has not
      have unused : handleText session.nextHandle ∉ ended := fun closed => tracked.fresh (tracked.returned _ closed)
      refine ⟨?_, ?_, fun handle => ?_, fun handle closed => ?_⟩
      · rw [List.length_append, List.length_singleton, List.range'_1_concat, List.map_append, ← tracked.texts,
          tracked.next, Nat.add_comm 1]
        rfl
      · rw [counter, UInt64.toNat_add, tracked.counter, List.length_append, List.length_singleton]
        exact Nat.mod_eq_of_lt (by simp; omega)
      · rw [handles, List.mem_append, List.mem_singleton]
        by_cases same : handle = handleText session.nextHandle
        · subst handle
          simp [unused]
        · rw [AList.lookup_insert_ne same, tracked.live, or_iff_left same]
      · exact List.mem_append_left _ (tracked.returned handle closed)
  | @closes named live names notOpens closes changed =>
      obtain ⟨handles, counter⟩ := Prod.mk.inj changed
      have nothing : givenHandle input.2 answer = none :=
        givenHandle_none fun opens => absurd opens (by simp [notOpens])
      rw [nothing, closes, Option.toList_none, Option.toList_some, List.append_nil]
      refine ⟨tracked.texts, by rw [counter, tracked.counter], fun handle => ?_, fun handle closed => ?_⟩
      · rw [handles, List.mem_append, List.mem_singleton, not_or, ← and_assoc, ← tracked.live]
        by_cases same : handle = named
        · subst handle
          simp
        · rw [AList.lookup_erase_ne same, and_iff_left same]
      · rcases List.mem_append.mp closed with before | now
        · exact tracked.returned handle before
        · rw [List.mem_singleton.mp now]
          exact ((tracked.live named).mp live).1
  | @lists listed dir left found suffix names notOpens notEnded changed =>
      obtain ⟨handles, counter⟩ := Prod.mk.inj changed
      have nothing : givenHandle input.2 answer = none :=
        givenHandle_none fun opens => absurd opens (by simp [notOpens])
      rw [nothing, notEnded, Option.toList_none, List.append_nil, List.append_nil]
      refine ⟨tracked.texts, by rw [counter, tracked.counter], fun handle => ?_, tracked.returned⟩
      rw [handles, ← tracked.live]
      by_cases same : handle = listed
      · subst handle
        simp [found]
      · rw [AList.lookup_insert_ne same]

/-- A step that returns a handle has opened something under the next number. -/
theorem TableStep.given {input : Input} {answer : Except StatusCode Reply} {after : Session} {handle : Text}
    (step : TableStep input session answer after) (returns : givenHandle input.2 answer = some handle) :
    handle = handleText session.nextHandle ∧ ∃ entry, Opens input session entry ∧
      after.handles.lookup handle = some entry := by
  have nothing : input.2.opens = false → False := by
    intro notOpens
    rw [givenHandle_none fun opens => absurd opens (by simp [notOpens])] at returns
    cases returns
  cases step with
  | keeps _ failed =>
      rw [givenHandle_none failed] at returns
      cases returns
  | opens opened fresh changed =>
      rw [fresh] at returns
      cases returns
      exact ⟨rfl, _, opened, by rw [(Prod.mk.inj changed).1, AList.lookup_insert]⟩
  | closes _ _ notOpens => exact (nothing notOpens).elim
  | lists _ _ _ notOpens => exact (nothing notOpens).elim

end Invariant

section Run
variable (digests : Digests)

def exchanges (start : Session) (inputs : List Input) : List (Input × Except StatusCode Reply) :=
  inputs.zip (run (sessionStep digests) start inputs).1

def given (start : Session) (inputs : List Input) : List Text :=
  (exchanges digests start inputs).filterMap fun exchange => givenHandle exchange.1.2 exchange.2

def ended (start : Session) (inputs : List Input) : List Text :=
  (exchanges digests start inputs).filterMap fun exchange => endedHandle exchange.1.2 exchange.2

theorem filterMap_cons_toList {α β : Type} (pick : α → Option β) (first : α) (rest : List α) :
    (first :: rest).filterMap pick = (pick first).toList ++ rest.filterMap pick := by
  cases picked : pick first <;> simp [picked]

theorem given_cons (start : Session) (input : Input) (rest : List Input) :
    given digests start (input :: rest) = (givenHandle input.2 (sessionStep digests start input).1).toList ++
      given digests (sessionStep digests start input).2 rest := filterMap_cons_toList _ _ _

theorem ended_cons (start : Session) (input : Input) (rest : List Input) :
    ended digests start (input :: rest) = (endedHandle input.2 (sessionStep digests start input).1).toList ++
      ended digests (sessionStep digests start input).2 rest := filterMap_cons_toList _ _ _

theorem exchanges_append (start : Session) (earlier later : List Input) :
    exchanges digests start (earlier ++ later) = exchanges digests start earlier ++
      exchanges digests (run (sessionStep digests) start earlier).2 later := by
  rw [exchanges, run_append, List.zip_append (run_length start earlier).symm]
  rfl

theorem given_append (start : Session) (earlier later : List Input) :
    given digests start (earlier ++ later) = given digests start earlier ++
      given digests (run (sessionStep digests) start earlier).2 later := by
  rw [given, exchanges_append, List.filterMap_append, given, given]

theorem ended_append (start : Session) (earlier later : List Input) :
    ended digests start (earlier ++ later) = ended digests start earlier ++
      ended digests (run (sessionStep digests) start earlier).2 later := by
  rw [ended, exchanges_append, List.filterMap_append, ended, ended]

variable {digests} {start : Session}

theorem Tracked.handled {before closed : List Text} {input : Input} {more : List Text}
    (tracked : Tracked before closed start)
    (few : (before ++ (givenHandle input.2 (sessionStep digests start input).1).toList ++ more).length < 2 ^ 64 - 1) :
    Tracked (before ++ (givenHandle input.2 (sessionStep digests start input).1).toList)
      (closed ++ (endedHandle input.2 (sessionStep digests start input).1).toList)
      (sessionStep digests start input).2 := by
  apply tracked.step (sessionStep_table digests input tracked.free)
  rw [List.length_append] at few
  exact Nat.lt_of_le_of_lt (Nat.le_add_right _ _) few

theorem tracked_run {inputs : List Input} {before closed : List Text} (tracked : Tracked before closed start)
    (few : (before ++ given digests start inputs).length < 2 ^ 64 - 1) :
    Tracked (before ++ given digests start inputs) (closed ++ ended digests start inputs)
      (run (sessionStep digests) start inputs).2 := by
  induction inputs generalizing start before closed with
  | nil => simpa [given, ended, exchanges] using tracked
  | cons input rest ih =>
      rw [given_cons, ← List.append_assoc] at few ⊢
      rw [ended_cons, ← List.append_assoc]
      exact ih (tracked.handled few) few

theorem remains_run {inputs : List Input} {before closed : List Text} (tracked : Tracked before closed start)
    (few : (before ++ given digests start inputs).length < 2 ^ 64 - 1) {handle : Text} {entry : OpenEntry}
    (found : start.handles.lookup handle = some entry) (notEnded : handle ∉ ended digests start inputs) :
    ∃ later, (run (sessionStep digests) start inputs).2.handles.lookup handle = some later ∧ entry.Remains later := by
  induction inputs generalizing start before closed entry with
  | nil => exact ⟨entry, found, .refl entry⟩
  | cons input rest ih =>
      rw [given_cons, ← List.append_assoc] at few
      rw [ended_cons, List.mem_append, not_or] at notEnded
      have kept : endedHandle input.2 (sessionStep digests start input).1 ≠ some handle := by
        intro closes
        exact notEnded.1 (by simp [closes])
      obtain ⟨middle, there, remains⟩ :=
        (sessionStep_table digests input tracked.free).remains tracked.free found kept
      obtain ⟨later, final, stays⟩ := ih (tracked.handled few) few there notEnded.2
      exact ⟨later, final, remains.trans stays⟩

theorem tracked_new (username homeDir clientIp : Text) (users : UserManager) (now : Nat) (fs : FileSystem)
    (log : List FileLogInfo) : Tracked [] [] (.new username homeDir clientIp users now fs log) :=
  ⟨rfl, rfl, fun handle => by simp [Session.new], fun handle closed => by cases closed⟩

/-- A returned handle that is not closed is bound to what it was opened for. -/
theorem bound_run {earlier later : List Input} {input : Input} {before closed : List Text}
    (tracked : Tracked before closed start)
    (few : (before ++ given digests start (earlier ++ input :: later)).length < 2 ^ 64 - 1) {handle : Text}
    (returns : givenHandle input.2 (sessionStep digests (run (sessionStep digests) start earlier).2 input).1 = some handle)
    (notEnded : handle ∉ ended digests start (earlier ++ input :: later)) :
    ∃ opened entry, Opens input (run (sessionStep digests) start earlier).2 opened ∧
      (run (sessionStep digests) start (earlier ++ input :: later)).2.handles.lookup handle = some entry ∧
      opened.Remains entry := by
  rw [given_append, ← List.append_assoc] at few
  have reached : Tracked _ _ (run (sessionStep digests) start earlier).2 := tracked_run tracked (by
    rw [List.length_append] at few
    exact Nat.lt_of_le_of_lt (Nat.le_add_right _ _) few)
  rw [given_cons, ← List.append_assoc] at few
  rw [ended_append, ended_cons, List.mem_append, List.mem_append, not_or, not_or] at notEnded
  obtain ⟨-, entry, opened, there⟩ := (sessionStep_table digests input reached.free).given returns
  obtain ⟨later, final, remains⟩ := remains_run (reached.handled few) few there notEnded.2.2
  refine ⟨entry, later, opened, ?_, remains⟩
  rw [run_append]
  exact final

end Run

section Refused
variable {env : RequestEnv} {session : Session} {handle : Text}

theorem fileHandle_refused (other : ∀ f, session.handles.lookup handle ≠ some (.file f)) :
    fileHandle handle session = (.error .noSuchFile, session) := by
  rw [fileHandle, Action.query_run]
  split
  · next f found => exact absurd found (other f)
  · rfl

theorem dirHandle_refused (other : ∀ dir, session.handles.lookup handle ≠ some (.dir dir)) :
    dirHandle handle session = (.error .noSuchFile, session) := by
  rw [dirHandle, Action.query_run]
  split
  · next dir found => exact absurd found (other dir)
  · rfl

theorem not_file_of_misused {request : Request} {entry : Option OpenEntry}
    (takesFiles : ∀ f, request.misuses (some (.file f)) = false) (misused : request.misuses entry = true)
    (f : FileHandle) : entry ≠ some (.file f) := by
  rintro rfl
  rw [takesFiles] at misused
  cases misused

def Refused (session : Session) (result : Except StatusCode Reply × Session) : Prop :=
  (∃ why, result.1 = .error why) ∧ result.2.table = session.table

theorem refused_of_run {action : Handled Reply} {why : StatusCode} {after : Session}
    (ran : action session = (.error why, after)) (same : after.table = session.table) :
    Refused session (action session) := by
  rw [ran]
  exact ⟨⟨why, rfl⟩, same⟩

theorem sessionStep_refused (digests : Digests) {input : Input} (named : input.2.named = some handle)
    (misused : input.2.misuses (session.handles.lookup handle) = true) :
    Refused session (sessionStep digests session input) := by
  obtain ⟨env, request⟩ := input
  cases request with
  | close id other =>
      cases named
      have missing : session.handles.lookup handle = none := by
        cases found : session.handles.lookup handle with
        | none => rfl
        | some entry =>
            rw [found] at misused
            cases entry <;> cases misused
      exact refused_of_run (Action.bind_run_error (by simp [missing]; rfl)) rfl
  | read id other offset len =>
      cases named
      have noFile := not_file_of_misused (fun _ => rfl) misused
      exact refused_of_run (Action.bind_run_error (fileHandle_refused noFile)) rfl
  | fstat id other =>
      cases named
      have noFile := not_file_of_misused (fun _ => rfl) misused
      exact refused_of_run (Action.bind_run_error (fileHandle_refused noFile)) rfl
  | write id other offset data =>
      cases named
      have noFile := not_file_of_misused (fun _ => rfl) misused
      have checked : Leaves Session.table (writeCheck env data) := leaves_writeCheck (fun _ _ => rfl) data
      apply Action.Leaves.followed checked (Refused session)
      · intro why after same
        exact ⟨⟨why, rfl⟩, same⟩
      · intro _ after passed _
        obtain ⟨-, rfl⟩ := writeCheck_ok passed
        exact refused_of_run (Action.bind_run_error (fileHandle_refused noFile)) rfl
  | fsetstat id other attrs => exact refused_of_run rfl rfl
  | readdir id other =>
      cases named
      have noDir : ∀ dir, session.handles.lookup handle ≠ some (.dir dir) := by
        intro dir found
        rw [found] at misused
        cases misused
      exact refused_of_run (Action.bind_run_error (dirHandle_refused noDir)) rfl
  | _ => cases named

end Refused

/-- The handle table at the end of a run and under the request that comes next. -/
structure HandlesSound (digests : Digests) (start : Session) (inputs : List Input) : Prop where
  fresh : (given digests start inputs).Nodup
  live : ∀ handle, ((run (sessionStep digests) start inputs).2.handles.lookup handle).isSome = true ↔
    handle ∈ given digests start inputs ∧ handle ∉ ended digests start inputs
  bound : ∀ earlier input later handle, inputs = earlier ++ input :: later →
    givenHandle input.2 (sessionStep digests (run (sessionStep digests) start earlier).2 input).1 = some handle →
    handle ∉ ended digests start inputs →
    ∃ opened entry, Opens input (run (sessionStep digests) start earlier).2 opened ∧
      (run (sessionStep digests) start inputs).2.handles.lookup handle = some entry ∧ opened.Remains entry
  gives : ∀ input reply, input.2.opens = true →
    (sessionStep digests (run (sessionStep digests) start inputs).2 input).1 = .ok reply →
    ∃ handle, givenHandle input.2 (.ok reply) = some handle ∧ handle ∉ given digests start inputs
  failed : ∀ input why, input.2.opens = true →
    (sessionStep digests (run (sessionStep digests) start inputs).2 input).1 = .error why →
    (sessionStep digests (run (sessionStep digests) start inputs).2 input).2.table =
      (run (sessionStep digests) start inputs).2.table
  apart : ∀ input named other, input.2.named = some named → other ≠ named →
    (sessionStep digests (run (sessionStep digests) start inputs).2 input).2.handles.lookup other =
      (run (sessionStep digests) start inputs).2.handles.lookup other
  refused : ∀ input handle, input.2.named = some handle →
    input.2.misuses ((run (sessionStep digests) start inputs).2.handles.lookup handle) = true →
    Refused (run (sessionStep digests) start inputs).2 (sessionStep digests (run (sessionStep digests) start inputs).2 input)

/-- After every run of a new session, as long as the counter has not come to its end. -/
theorem handles_sound (digests : Digests) (username homeDir clientIp : Text) (users : UserManager) (now : Nat)
    (fs : FileSystem) (log : List FileLogInfo) (inputs : List Input)
    (few : (given digests (.new username homeDir clientIp users now fs log) inputs).length < 2 ^ 64 - 1) :
    HandlesSound digests (.new username homeDir clientIp users now fs log) inputs := by
  have initial := tracked_new username homeDir clientIp users now fs log
  have tracked := tracked_run initial few
  rw [List.nil_append, List.nil_append] at tracked
  have step := fun input => sessionStep_table digests input tracked.free
  refine ⟨tracked.nodup, tracked.live, ?_, ?_, ?_, ?_, ?_⟩
  · rintro earlier input later handle rfl returns notEnded
    exact bound_run initial few returns notEnded
  · intro input reply opens answered
    rw [← answered]
    rcases (step input).opening opens with ⟨⟨why, failed⟩, -⟩ | returns
    · cases answered.symm.trans failed
    · exact ⟨_, returns, tracked.fresh⟩
  · intro input why opens answered
    rcases (step input).opening opens with ⟨-, same⟩ | returns
    · exact same
    · rw [answered, givenHandle_none fun _ => ⟨why, rfl⟩] at returns
      cases returns
  · intro input named other names apart
    exact (step input).apart names apart
  · intro input handle names misused
    exact sessionStep_refused digests names misused

theorem given_length (digests : Digests) (start : Session) (inputs : List Input) :
    (given digests start inputs).length ≤ inputs.length := by
  have filtered := List.length_filterMap_le (fun exchange : Input × Except StatusCode Reply =>
    givenHandle exchange.1.2 exchange.2) (exchanges digests start inputs)
  rw [exchanges, List.length_zip, run_length, Nat.min_self] at filtered
  exact filtered

theorem handles_sound_twice :
    let listing := permissiveEnv { (.default : Permissions) with canList := true }
    HandlesSound noDigests (sessionAt .empty)
      [(listing, .opendir 1 "/".toList), (listing, .opendir 2 "/".toList), (listing, .close 3 "h1".toList)] :=
  handles_sound noDigests "ann".toList "/".toList "10.0.0.1".toList (usersWith .default) 0 .empty [] _
    (Nat.lt_of_le_of_lt (given_length _ _ _) (by decide))

end Wftpd.Sftp
