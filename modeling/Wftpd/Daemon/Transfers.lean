import Wftpd.Daemon.ReadOnly
import Wftpd.Ftp.Transfers
import Wftpd.Sftp.Transfers

/-! Files that travel through both front ends while other clients are at work.

Whoever shares the home of a file only asks meanwhile; everybody else may do what he likes.
-/

set_option autoImplicit false

namespace Wftpd.Daemon
open Wftpd.Posix Wftpd.Posix.FileSystem Wftpd.Common Wftpd.Library Wftpd.Ftp Wftpd.Sftp

variable {homes : Client → Loc} {digests : Digests} {server : Server} {input : ServerInput}

section Quiet

/-- A login, the start of a session, or a question. -/
def ServerInput.asks : ServerInput → Bool
  | .enter _ _ _ | .start _ _ _ _ _ _ => true
  | .call _ input => input.2.reads
  | .request _ input => !input.2.mutates

def Quiet (homes : Client → Loc) (owner : Client) (input : ServerInput) : Prop :=
  homes input.client = homes owner → input.asks = true

theorem Acts.asks_fs {next : Server} (acts : Acts digests server input next) (fits : Fits homes server input)
    (asks : input.asks = true) (dir : server.fs.tree.isDir (homes input.client) = true) : next.fs = server.fs := by
  cases acts with
  | absent | started => rfl
  | @entered who env user after ran =>
      have kept : (enter env user (server.storage none)).2.fs = server.fs := enter_existing dir fits
      rwa [ran] at kept
  | @refused who env user after why ran =>
      have kept : (enter env user (server.storage none)).2.fs = server.fs := enter_existing dir fits
      rwa [ran] at kept
  | @called who input login after found ran =>
      rw [← ran]
      exact handleCall_fs asks (server.storage login.root)
  | @replied who input session after found ran =>
      rw [← ran]
      exact handleRequest_leaves_fs digests input.1 (by simpa [ServerInput.asks] using asks) (server.view session)

variable {owner : Client} (disjoint : HomesApart homes)
include disjoint

theorem quiet_step (separate : Separate homes server) (fits : Fits homes server input)
    (dir : server.fs.tree.isDir (homes owner) = true) (quiet : Quiet homes owner input) {loc : Loc}
    (inside : homes owner <+: loc) : Untouched server.fs (serverStep digests server input).2.fs loc := by
  rcases disjoint owner input.client with shared | apart
  · rw [shared] at dir
    rw [(serverStep_acts digests server input).asks_fs fits (quiet shared.symm) dir]
    exact .refl _ _
  · exact untouched_of_within (serverStep_separate digests disjoint separate fits).1 (apart.outside inside)

/-- A file below a home: the path that leads to it, its place and its bytes. -/
structure Stored (home : Loc) (below : List Name) (loc : Loc) (ino : Nat) (bytes : List UInt8) (fs : FileSystem) : Prop where
  leads : Leads home fs (.ofNames (home ++ below)) loc
  found : fs.tree.find loc = some (.file ino)
  bytes : fs.data ino = bytes

variable {below : List Name} {loc : Loc} {ino : Nat} {bytes : List UInt8}

theorem Stored.quiet (stored : Stored (homes owner) below loc ino bytes server.fs) (separate : Separate homes server)
    (fits : Fits homes server input) (quiet : Quiet homes owner input) :
    Stored (homes owner) below loc ino bytes (serverStep digests server input).2.fs := by
  have kept : ∀ loc, homes owner <+: loc → Untouched server.fs (serverStep digests server input).2.fs loc :=
    fun _ inside => quiet_step disjoint separate fits stored.leads.dir quiet inside
  obtain ⟨entry, content⟩ := kept loc stored.leads.inside
  exact ⟨stored.leads.grown (grown_of_same fun loc inside => (kept loc inside).1), entry.trans stored.found,
    (content _ stored.found).1.trans stored.bytes⟩

theorem stored_run {inputs : List ServerInput} (stored : Stored (homes owner) below loc ino bytes server.fs)
    (separate : Separate homes server) (fits : Along (serverStep digests) (Fits homes) server inputs)
    (quiet : ∀ input ∈ inputs, Quiet homes owner input) :
    Stored (homes owner) below loc ino bytes (run (serverStep digests) server inputs).2.fs := by
  let invariant (server : Server) := Separate homes server ∧ Stored (homes owner) below loc ino bytes server.fs
  have keeps : ∀ server input, invariant server → Fits homes server input ∧ Quiet homes owner input →
      invariant (serverStep digests server input).2 := by
    intro server input ⟨separate, stored⟩ ⟨fits, quiet⟩
    exact ⟨(serverStep_separate digests disjoint separate fits).2, stored.quiet disjoint separate fits quiet⟩
  have final : invariant (run (serverStep digests) server inputs).2 :=
    run_invariant keeps ⟨separate, stored⟩ (fits.and (.of_forall quiet))
  exact final.2

end Quiet

section Sessions

/-- Where a session comes from: it was there, it is new, or its client has sent a request. -/
theorem Acts.session_cases {next : Server} (acts : Acts digests server input next) {who : Nat} {session : Session}
    (found : next.sessions who = some session) :
    server.sessions who = some session ∨
      (∃ username homeDir clientIp users now, session = .new username homeDir clientIp users now server.fs server.log) ∨
      ∃ request old, input = .request who request ∧ server.sessions who = some old ∧
        session = (sessionStep digests (server.view old) request).2 := by
  cases acts with
  | absent | entered | refused | called => exact .inl found
  | @started actor username homeDir clientIp users now =>
      by_cases same : who = actor
      · subst who
        exact .inr (.inl ⟨username, homeDir, clientIp, users, now, by simpa [Server.putSession] using found.symm⟩)
      · exact .inl (by simpa [Server.putSession, same] using found)
  | @replied actor request old after there ran =>
      by_cases same : who = actor
      · subst who
        have here : after = session := by simpa [Server.putSession] using found
        exact .inr (.inr ⟨request, old, rfl, there, here.symm.trans ran.symm⟩)
      · exact .inl (by simpa [Server.putSession, same] using found)

theorem tracked_view {before closed : List Text} {session : Session} (tracked : Tracked before closed session) :
    Tracked before closed (server.view session) := ⟨tracked.texts, tracked.counter, tracked.live, tracked.returned⟩

def Given (count : Nat) (session : Session) : Prop := ∃ before closed, Tracked before closed session ∧ before.length ≤ count

theorem Given.request {count : Nat} {session : Session} (given : Given count session) (few : count + 1 < 2 ^ 64 - 1)
    (request : Input) : Given (count + 1) (sessionStep digests session request).2 := by
  obtain ⟨before, closed, tracked, short⟩ := given
  have one : (givenHandle request.2 (sessionStep digests session request).1).toList.length ≤ 1 := by
    cases givenHandle request.2 (sessionStep digests session request).1 <;> simp
  refine ⟨_, _, tracked.step (sessionStep_table digests request tracked.free) ?_, ?_⟩ <;>
    rw [List.length_append] <;> omega

theorem given_run {inputs : List ServerInput} {count : Nat} (few : count + inputs.length < 2 ^ 64 - 1)
    (given : ∀ who session, server.sessions who = some session → Given count session) {who : Nat} {session : Session}
    (found : (run (serverStep digests) server inputs).2.sessions who = some session) :
    Given (count + inputs.length) session := by
  induction inputs generalizing server count with
  | nil => exact given who session found
  | cons input rest ih =>
      rw [List.length_cons] at few ⊢
      rw [show count + (rest.length + 1) = count + 1 + rest.length by omega] at few ⊢
      refine ih few (fun who session found => ?_) found
      rcases (serverStep_acts digests server input).session_cases found with
        before | ⟨_, _, _, _, _, rfl⟩ | ⟨request, old, rfl, there, rfl⟩
      · obtain ⟨before, closed, tracked, short⟩ := given who session before
        exact ⟨before, closed, tracked, Nat.le_succ_of_le short⟩
      · exact ⟨[], [], tracked_new _ _ _ _ _ _ _, Nat.zero_le _⟩
      · obtain ⟨before, closed, tracked, short⟩ := given who old there
        exact Given.request ⟨before, closed, tracked_view tracked, short⟩ (by omega) request

end Sessions

section Fetch
variable {reader : Nat} {handle : Text}

/-- The READ of this client and handle, with the place it asks for, and its answer. -/
def readBy (reader : Nat) (handle : Text) (exchange : ServerInput × ServerAnswer) :
    Option (Nat × UInt32 × Except StatusCode Reply) :=
  match exchange with
  | (.request who input, .replied result) => if who = reader then readOf handle (input, result) else none
  | _ => none

def readingsBy (digests : Digests) (reader : Nat) (handle : Text) (server : Server) (inputs : List ServerInput) :
    List (Nat × UInt32 × Except StatusCode Reply) :=
  (inputs.zip (run (serverStep digests) server inputs).1).filterMap (readBy reader handle)

theorem readingsBy_cons (server : Server) (input : ServerInput) (rest : List ServerInput) :
    readingsBy digests reader handle server (input :: rest) =
      (readBy reader handle (input, (serverStep digests server input).1)).toList ++
        readingsBy digests reader handle (serverStep digests server input).2 rest := filterMap_cons_toList _ _ _

def KeepsOpen (reader : Nat) (handle : Text) : ServerInput → Prop
  | .start who _ _ _ _ _ => who ≠ reader
  | .request who input => who = reader → ∀ id, input.2 ≠ .close id handle
  | _ => True

def Reads (reader : Nat) (handle : Text) (ino count : Nat) (server : Server) : Prop :=
  ∃ session f, server.sessions reader = some session ∧ Given count session ∧
    session.handles.lookup handle = some (.file f) ∧ f.file.ino = ino

theorem endedHandle_closes {request : Request} {answer : Except StatusCode Reply} {handle : Text}
    (ended : endedHandle request answer = some handle) : ∃ id, request = .close id handle := by
  unfold endedHandle at ended
  split at ended
  · next id _ _ =>
      cases ended
      exact ⟨id, rfl⟩
  · cases ended

theorem Reads.step {ino count : Nat} (reads : Reads reader handle ino count server) (few : count + 1 < 2 ^ 64 - 1)
    (keeps : KeepsOpen reader handle input) : Reads reader handle ino (count + 1) (serverStep digests server input).2 := by
  obtain ⟨session, f, there, given, found, same⟩ := reads
  have waits : ∀ next : Server, next.sessions reader = some session → Reads reader handle ino (count + 1) next := by
    obtain ⟨before, closed, tracked, short⟩ := given
    exact fun next still => ⟨session, f, still, ⟨before, closed, tracked, Nat.le_succ_of_le short⟩, found, same⟩
  cases input with
  | enter who env user =>
      apply waits
      simp only [serverStep]
      split <;> exact there
  | call who call =>
      apply waits
      simp only [serverStep]
      split <;> exact there
  | start who username homeDir clientIp users now =>
      apply waits
      exact (Function.update_of_ne (Ne.symm keeps) _ _).trans there
  | request who request =>
      by_cases own : who = reader
      · subst own
        obtain ⟨before, closed, tracked, short⟩ := given
        have seen : Tracked before closed (server.view session) := tracked_view tracked
        have notEnded : handle ∉ (endedHandle request.2 (sessionStep digests (server.view session) request).1).toList := by
          intro ended
          obtain ⟨id, closes⟩ := endedHandle_closes (Option.mem_toList.mp ended)
          exact keeps rfl id closes
        refine ⟨_, f, ?_, Given.request ⟨before, closed, seen, short⟩ few request, file_remains seen found notEnded, same⟩
        simp only [serverStep, there]
        exact Function.update_self _ _ _
      · apply waits
        simp only [serverStep]
        split
        · exact there
        · exact (Function.update_of_ne (Ne.symm own) _ _).trans there

theorem readBy_some {answer : ServerAnswer} {asked : Nat × UInt32 × Except StatusCode Reply}
    (isRead : readBy reader handle (input, answer) = some asked) :
    ∃ env id place len result, input = .request reader (env, .read id handle place len) ∧ answer = .replied result ∧
      asked = (place.toNat, len, result) := by
  unfold readBy at isRead
  split at isRead
  · next who request result same =>
      obtain ⟨rfl, rfl⟩ := Prod.mk.inj same
      split at isRead
      · next own =>
          obtain ⟨env, id, place, len, rfl, rfl⟩ := readOf_some isRead
          exact ⟨env, id, place, len, result, by rw [own], rfl, rfl⟩
      · cases isRead
  · cases isRead

variable {owner : Client} {below : List Name} {loc : Loc} {ino : Nat} {data : List UInt8}

/-- Reading on while the others go on working. -/
theorem fetched_among (disjoint : HomesApart homes) {inputs : List ServerInput} {count : Nat}
    (few : count + inputs.length < 2 ^ 64 - 1) (separate : Separate homes server)
    (stored : Stored (homes owner) below loc ino data server.fs) (reads : Reads reader handle ino count server)
    (fits : Along (serverStep digests) (Fits homes) server inputs)
    (quiet : ∀ input ∈ inputs, Quiet homes owner input ∧ KeepsOpen reader handle input) {offset : Nat} {bytes : List UInt8}
    (fetched : Fetched offset (readingsBy digests reader handle server inputs) bytes) : bytes = data.drop offset := by
  induction inputs generalizing server count offset bytes with
  | nil => cases fetched
  | cons input rest ih =>
      rw [List.length_cons] at few
      obtain ⟨first, onward⟩ := fits
      obtain ⟨quietly, keeps⟩ := quiet input (by simp)
      have later : ∀ offset bytes, Fetched offset (readingsBy digests reader handle (serverStep digests server input).2 rest)
          bytes → bytes = data.drop offset := by
        intro offset bytes fetched
        exact ih (by omega) (serverStep_separate digests disjoint separate first).2
          (stored.quiet disjoint separate first quietly) (reads.step (by omega) keeps) onward
          (fun other member => quiet other (by simp [member])) fetched
      rw [readingsBy_cons] at fetched
      cases isRead : readBy reader handle (input, (serverStep digests server input).1) with
      | none =>
          rw [isRead] at fetched
          exact later _ _ fetched
      | some asked =>
          rw [isRead] at fetched
          obtain ⟨env, id, place, len, result, rfl, answer, rfl⟩ := readBy_some isRead
          obtain ⟨session, f, there, -, found, rfl⟩ := reads
          simp only [serverStep, there] at answer
          cases answer
          have seen : (server.view session).handles.lookup handle = some (.file f) := found
          exact fetched_read seen stored.bytes later fetched

end Fetch

section Passage

/-- The server after these inputs, since nobody was connected. -/
def reached (digests : Digests) (fs : FileSystem) (log : List FileLogInfo) (inputs : List ServerInput) : Server :=
  (run (serverStep digests) (.idle fs log) inputs).2

theorem reached_append (fs : FileSystem) (log : List FileLogInfo) (earlier later : List ServerInput) :
    reached digests fs log (earlier ++ later) = (run (serverStep digests) (reached digests fs log earlier) later).2 := by
  rw [reached, run_append]
  rfl

theorem separate_reached (disjoint : HomesApart homes) {fs : FileSystem} {log : List FileLogInfo} {inputs : List ServerInput}
    (fenced : ∀ client, Fenced (homes client) fs) (fits : Along (serverStep digests) (Fits homes) (.idle fs log) inputs) :
    Separate homes (reached digests fs log inputs) := by
  have keeps : ∀ server input, Separate homes server → Fits homes server input →
      Separate homes (serverStep digests server input).2 :=
    fun _ _ separate allowed => (serverStep_separate digests disjoint separate allowed).2
  exact run_invariant keeps (.idle fenced log) fits

variable {writer reader : Nat} {env : CallEnv} {upload : Upload} {path : Text} {startPos : UInt64}

theorem put_answered {count : Nat}
    (stored : (serverStep digests server (.call writer (env, .put upload path startPos))).1 = .called (.ok (.written count))) :
    ∃ login after, server.logins writer = some login ∧
      put env login.user upload path startPos (server.storage login.root) = (.ok count, after) ∧
      (serverStep digests server (.call writer (env, .put upload path startPos))).2.fs = after.fs := by
  cases found : server.logins writer with
  | none =>
      simp only [serverStep, found] at stored
      cases stored
  | some login =>
      simp only [serverStep, found, callStep, handleCall] at stored ⊢
      cases ran : put env login.user upload path startPos (server.storage login.root) with
      | mk result after =>
          cases result with
          | error why =>
              rw [Action.bind_run_error ran] at stored
              cases stored
          | ok written =>
              rw [Action.bind_run_ok ran] at stored ⊢
              cases stored
              exact ⟨login, after, rfl, ran, rfl⟩

theorem put_stored {count : Nat} (separate : Separate homes server)
    (dir : server.fs.tree.isDir (homes (.ftp writer)) = true)
    (stored : (serverStep digests server (.call writer (env, .put upload path 0))).1 = .called (.ok (.written count))) :
    ∃ below loc ino, Ftp.resolve (some (.ofNames (homes (.ftp writer)))) (components path) =
        .ok (.ofNames (homes (.ftp writer) ++ below)) ∧
      Stored (homes (.ftp writer)) below loc ino (sent upload)
        (serverStep digests server (.call writer (env, .put upload path 0))).2.fs := by
  obtain ⟨login, after, found, ran, same⟩ := put_answered stored
  have rooted : (server.storage login.root).root = some (.ofNames (homes (.ftp writer))) := separate.roots writer login found
  have fenced : Fenced (homes (.ftp writer)) (server.storage login.root).fs := separate.fenced (.ftp writer)
  obtain ⟨p, loc, ino, accepted, -, leads, there, bytes⟩ := put_stores rooted fenced dir ran
  rw [rooted] at accepted
  obtain ⟨below, rfl⟩ := resolve_names accepted
  rw [same]
  exact ⟨below, loc, ino, accepted, leads, there, bytes⟩

theorem open_answered {asks : RequestEnv} {id : UInt32} {filename handle : Text} {pflags : OpenFlags}
    (opened : (serverStep digests server (.request reader (asks, .open id filename pflags))).1 =
      .replied (.ok (.handle id handle))) :
    ∃ session after, server.sessions reader = some session ∧
      sessionStep digests (server.view session) (asks, .open id filename pflags) = (.ok (.handle id handle), after) ∧
      (serverStep digests server (.request reader (asks, .open id filename pflags))).2 = server.putSession reader after := by
  cases found : server.sessions reader with
  | none =>
      simp only [serverStep, found] at opened
      cases opened
  | some session =>
      simp only [serverStep, found] at opened ⊢
      cases ran : sessionStep digests (server.view session) (asks, .open id filename pflags) with
      | mk result after =>
          rw [ran] at opened
          cases opened
          exact ⟨session, after, rfl, ran, rfl⟩

theorem open_stored {home : Loc} {below : List Name} {loc : Loc} {ino given : Nat} {data : List UInt8}
    (stored : Stored home below loc ino data server.fs)
    (known : ∀ session, server.sessions reader = some session → Given given session) (few : given + 1 < 2 ^ 64 - 1)
    {asks : RequestEnv} {id : UInt32} {filename handle : Text} {pflags : OpenFlags} (reads : pflags.wantsWrite = false)
    (samePlace : ∀ session, server.sessions reader = some session →
      Sftp.resolve session.homeDir filename = .ok (.ofNames (home ++ below)))
    (opened : (serverStep digests server (.request reader (asks, .open id filename pflags))).1 =
      .replied (.ok (.handle id handle))) :
    Stored home below loc ino data (serverStep digests server (.request reader (asks, .open id filename pflags))).2.fs ∧
      Reads reader handle ino (given + 1) (serverStep digests server (.request reader (asks, .open id filename pflags))).2 := by
  obtain ⟨session, after, found, ran, next⟩ := open_answered opened
  obtain ⟨before, closed, tracked, short⟩ := known session found
  have keeps := (options_reads reads).2.1
  obtain ⟨f, there, same, unchanged⟩ := open_finds (tracked_view tracked) keeps (samePlace session found)
    (fun _ located => stored.leads.arrives located) stored.found ran
  have seen : Given given (server.view session) := ⟨before, closed, tracked_view tracked, short⟩
  have fresh : Given (given + 1) (sessionStep digests (server.view session) (asks, .open id filename pflags)).2 :=
    seen.request few _
  rw [ran] at fresh
  rw [next]
  refine ⟨?_, after, f, Function.update_self _ _ _, fresh, there, same⟩
  rw [show (server.putSession reader after).fs = server.fs from unchanged]
  exact stored

/-- What one client has stored through FTP another fetches through SFTP, byte for byte, from the
same place, in whatever pieces it reads, whatever clients of other homes do meanwhile. -/
theorem stored_fetched (digests : Digests) (homes : Client → Loc) (disjoint : HomesApart homes) (fs : FileSystem)
    (log : List FileLogInfo) (fenced : ∀ client, Fenced (homes client) fs) (writer reader : Nat)
    (earlier between later : List ServerInput) (env : CallEnv) (upload : Upload) (path : Text) (count : Nat)
    (store : ServerInput) (isStore : store = .call writer (env, .put upload path 0)) (asks : RequestEnv) (id : UInt32)
    (filename handle : Text) (pflags : OpenFlags) (reads : pflags.wantsWrite = false) (fetch : ServerInput)
    (isFetch : fetch = .request reader (asks, .open id filename pflags))
    (fits : Along (serverStep digests) (Fits homes) (.idle fs log) ((earlier ++ store :: between) ++ fetch :: later))
    (few : ((earlier ++ store :: between) ++ fetch :: later).length < 2 ^ 64 - 1)
    (dir : (reached digests fs log earlier).fs.tree.isDir (homes (.ftp writer)) = true)
    (stored : (serverStep digests (reached digests fs log earlier) store).1 = .called (.ok (.written count)))
    (samePlace : ∀ session p, (reached digests fs log (earlier ++ store :: between)).sessions reader = some session →
      Ftp.resolve (some (.ofNames (homes (.ftp writer)))) (components path) = .ok p →
      Sftp.resolve session.homeDir filename = .ok p)
    (opened : (serverStep digests (reached digests fs log (earlier ++ store :: between)) fetch).1 =
      .replied (.ok (.handle id handle)))
    (quietBetween : ∀ input ∈ between, Quiet homes (.ftp writer) input)
    (quietLater : ∀ input ∈ later, Quiet homes (.ftp writer) input ∧ KeepsOpen reader handle input) (bytes : List UInt8)
    (fetched : Fetched 0 (readingsBy digests reader handle
      (serverStep digests (reached digests fs log (earlier ++ store :: between)) fetch).2 later) bytes) :
    bytes = sent upload := by
  obtain ⟨fitsBefore, fitsFetch, fitsLater⟩ := Along.append.mp fits
  obtain ⟨fitsEarlier, fitsStore, fitsBetween⟩ := Along.append.mp fitsBefore
  have separate := separate_reached disjoint fenced fitsEarlier
  have separate' := separate_reached disjoint fenced fitsBefore
  -- the store, and what comes between
  subst isStore
  obtain ⟨below, loc, ino, accepted, kept⟩ := put_stored separate dir stored
  have waits := stored_run disjoint kept (serverStep_separate digests disjoint separate fitsStore).2 fitsBetween quietBetween
  rw [show (run _ _ between).2 = (run (serverStep digests) (reached digests fs log earlier)
    (.call writer (env, .put upload path 0) :: between)).2 from rfl, ← reached_append] at waits
  -- the fetch
  subst isFetch
  have short : (earlier ++ .call writer (env, .put upload path 0) :: between).length + (later.length + 1) < 2 ^ 64 - 1 := by
    rw [List.length_append, List.length_cons] at few
    exact few
  have known : ∀ session, (reached digests fs log (earlier ++ .call writer (env, .put upload path 0) :: between)).sessions
      reader = some session → Given (earlier ++ .call writer (env, .put upload path 0) :: between).length session := by
    intro session found
    have none : ∀ who session, (Server.idle fs log).sessions who = some session → Given 0 session := by
      intro _ _ found
      cases found
    simpa using given_run (by omega) none found
  obtain ⟨stays, ready⟩ := open_stored waits known (by omega) reads (fun session found => samePlace session _ found accepted)
    opened
  have fetched' := fetched_among disjoint (by omega) (serverStep_separate digests disjoint separate' fitsFetch).2 stays ready
    fitsLater quietLater fetched
  rwa [List.drop_zero] at fetched'

def secondUser : WftpdUser := .new "ann".toList (.ofNames ["b".toList]) .full

def logsIn : List ServerInput := [.enter 0 permissiveCall fullUser, .enter 1 permissiveCall secondUser, secondStarts]

def storesThree : ServerInput := .call 1 (permissiveCall, .put [.ok [1, 2], .ok [3]] "/f".toList 0)

def opensIt : ServerInput := .request 1 (permissiveEnv .full, .open 1 "f".toList { read := true })

def fetchesThree : List ServerInput :=
  [.request 1 (permissiveEnv .full, .read 2 "h1".toList 0 2), .call 0 (permissiveCall, .rmd "/x".toList),
    .request 1 (permissiveEnv .full, .read 3 "h1".toList 2 2), .request 1 (permissiveEnv .full, .read 4 "h1".toList 3 2)]

theorem stored_fetched_pair :
    let opened := (serverStep noDigests (reached noDigests twoHomes [] (logsIn ++ storesThree :: [firstMakes])) opensIt).2
    Fetched 0 (readingsBy noDigests 1 "h1".toList opened fetchesThree) [1, 2, 3] ∧
      [1, 2, 3] = sent [.ok [1, 2], .ok [3]] := by
  intro opened
  have fetched : Fetched 0 (readingsBy noDigests 1 "h1".toList opened fetchesThree) [1, 2, 3] :=
    Fetched.piece (.piece (.ended (by decide)))
  refine ⟨fetched, ?_⟩
  apply stored_fetched noDigests homeOf homeOf_apart twoHomes [] twoHomes_fenced 1 1 logsIn [firstMakes] fetchesThree
    permissiveCall [.ok [1, 2], .ok [3]] "/f".toList 3 storesThree rfl (permissiveEnv .full) 1 "f".toList "h1".toList
    { read := true } rfl opensIt rfl
  · have opens : ∀ session : Session, StaysBelow session (.open 1 "f".toList { read := true }) := by
      refine fun session => ⟨fun path member => ?_, fun _ _ _ same => by cases same⟩
      obtain rfl := List.mem_singleton.mp member
      exact not_climbs_relative (by decide)
    have reads : ∀ (session : Session) id place len, StaysBelow session (.read id "h1".toList place len) :=
      fun session id place len => ⟨fun _ member => (nomatch member), fun _ _ _ same => (nomatch same)⟩
    exact ⟨rfl, rfl, ⟨⟨by decide, by decide⟩, by decide⟩, trivial, trivial, fun session _ => opens session,
      fun session _ => reads session _ _ _, trivial, fun session _ => reads session _ _ _,
      fun session _ => reads session _ _ _, trivial⟩
  · decide
  · decide
  · rfl
  · intro session p found accepted
    have atHome : ((reached noDigests twoHomes [] (logsIn ++ storesThree :: [firstMakes])).sessions 1).map Session.homeDir =
        some "/b".toList := by decide
    rw [found] at atHome
    obtain rfl : PathBuf.ofNames ["b".toList, "f".toList] = p := Except.ok.inj accepted
    rw [Option.some.inj atHome]
    decide
  · rfl
  · intro input member
    obtain rfl := List.mem_singleton.mp member
    exact fun same => absurd same (by decide)
  · intro input member
    simp only [fetchesThree, List.mem_cons, List.not_mem_nil, or_false] at member
    rcases member with rfl | rfl | rfl | rfl
    · exact ⟨fun _ => rfl, fun _ _ => by simp⟩
    · exact ⟨fun same => absurd same (by decide), trivial⟩
    · exact ⟨fun _ => rfl, fun _ _ => by simp⟩
    · exact ⟨fun _ => rfl, fun _ _ => by simp⟩
  · exact fetched

end Passage

end Wftpd.Daemon
