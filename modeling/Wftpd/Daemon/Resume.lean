import Wftpd.Daemon.Transfers

/-! Uploads that break off and go on later, among other clients. -/

set_option autoImplicit false

namespace Wftpd.Daemon
open Wftpd.Posix Wftpd.Posix.FileSystem Wftpd.Common Wftpd.Library Wftpd.Ftp Wftpd.Sftp

variable {homes : Client → Loc} {digests : Digests} {server : Server} {input : ServerInput}

section Resume
variable {writer : Nat} {path : Text} {home : Loc} {below : List Name} {loc : Loc} {ino : Nat} {content : List UInt8}

/-- The file of an upload that has come so far. -/
structure Partway (home : Loc) (below : List Name) (loc : Loc) (ino : Nat) (content : List UInt8) (fs : FileSystem) : Prop where
  leads : Leads home fs (.ofNames (home ++ below)) loc
  found : fs.tree.find loc = some (.file ino)
  started : fs.data ino <+: content

/-- A PUT that goes on with the content, not past what the file has. -/
structure Resumes (path : Text) (ino : Nat) (content : List UInt8) (fs : FileSystem) (writer : Nat) (env : CallEnv)
    (upload : Upload) (startPos : UInt64) (input : ServerInput) : Prop where
  call : input = .call writer (env, .put upload path startPos)
  noGap : startPos.toNat ≤ (fs.data ino).length
  isBlock : IsBlock content startPos.toNat (sent upload)

variable (digests) in
theorem Partway.resumes (partway : Partway (homes (.ftp writer)) below loc ino content server.fs)
    (separate : Separate homes server)
    (accepted : Ftp.resolve (some (.ofNames (homes (.ftp writer)))) (components path) =
      .ok (.ofNames (homes (.ftp writer) ++ below))) {env : CallEnv} {upload : Upload} {startPos : UInt64}
    (resumes : Resumes path ino content server.fs writer env upload startPos input) :
    Partway (homes (.ftp writer)) below loc ino content (serverStep digests server input).2.fs ∧
      ∀ count, (serverStep digests server input).1 = .called (.ok (.written count)) →
        startPos.toNat + (sent upload).length ≤ ((serverStep digests server input).2.fs.data ino).length := by
  obtain ⟨rfl, noGap, isBlock⟩ := resumes
  cases found : server.logins writer with
  | none =>
      simp only [serverStep, found]
      exact ⟨partway, fun _ same => by cases same⟩
  | some login =>
      have rooted : (server.storage login.root).root = some (.ofNames (homes (.ftp writer))) :=
        separate.roots writer login found
      rw [← rooted] at accepted
      have continued := put_continues env login.user rooted accepted partway.leads partway.found
        partway.started noGap isBlock
      simp only [serverStep, found, callStep, handleCall]
      cases ran : put env login.user upload path startPos (server.storage login.root) with
      | mk result after =>
          rw [ran] at continued
          obtain ⟨grown, started, reaches⟩ := continued
          have partway' : Partway (homes (.ftp writer)) below loc ino content after.fs := by
            obtain ⟨rest, rfl⟩ := partway.leads.inside
            exact ⟨partway.leads.grown grown, grown.kept rest _ partway.found, started⟩
          cases result with
          | error why =>
              rw [Action.bind_run_error ran]
              exact ⟨partway', fun _ same => by cases same⟩
          | ok count =>
              rw [Action.bind_run_ok ran]
              exact ⟨partway', fun _ _ => reaches count rfl⟩

variable {owner : Client}

theorem Partway.quiet (partway : Partway (homes owner) below loc ino content server.fs) (disjoint : HomesApart homes)
    (separate : Separate homes server) (fits : Fits homes server input) (quiet : Quiet homes owner input) :
    Partway (homes owner) below loc ino content (serverStep digests server input).2.fs := by
  have stored : Stored (homes owner) below loc ino (server.fs.data ino) server.fs := ⟨partway.leads, partway.found, rfl⟩
  have kept : Stored (homes owner) below loc ino (server.fs.data ino) (serverStep digests server input).2.fs :=
    stored.quiet disjoint separate fits quiet
  exact ⟨kept.leads, kept.found, by rw [kept.bytes]; exact partway.started⟩

def GoesOn (homes : Client → Loc) (writer : Nat) (path : Text) (ino : Nat) (content : List UInt8) (server : Server)
    (input : ServerInput) : Prop :=
  Quiet homes (.ftp writer) input ∨
    ∃ env upload startPos, Resumes path ino content server.fs writer env upload startPos input

theorem partway_run (disjoint : HomesApart homes) {inputs : List ServerInput} (separate : Separate homes server)
    (partway : Partway (homes (.ftp writer)) below loc ino content server.fs)
    (accepted : Ftp.resolve (some (.ofNames (homes (.ftp writer)))) (components path) =
      .ok (.ofNames (homes (.ftp writer) ++ below)))
    (fits : Along (serverStep digests) (Fits homes) server inputs)
    (goesOn : Along (serverStep digests) (GoesOn homes writer path ino content) server inputs) :
    Separate homes (run (serverStep digests) server inputs).2 ∧
      Partway (homes (.ftp writer)) below loc ino content (run (serverStep digests) server inputs).2.fs := by
  let invariant (server : Server) := Separate homes server ∧ Partway (homes (.ftp writer)) below loc ino content server.fs
  have keeps : ∀ server input, invariant server → Fits homes server input ∧ GoesOn homes writer path ino content server input →
      invariant (serverStep digests server input).2 := by
    intro server input ⟨separate, partway⟩ ⟨fits, goesOn⟩
    refine ⟨(serverStep_separate digests disjoint separate fits).2, ?_⟩
    rcases goesOn with quiet | ⟨env, upload, startPos, resumes⟩
    · exact partway.quiet disjoint separate fits quiet
    · exact (partway.resumes digests separate accepted resumes).1
  exact run_invariant keeps ⟨separate, partway⟩ (fits.and goesOn)

/-- An upload that breaks off again and again and goes on where the file ends: the file always
holds the start of the content, and all of it once a PUT with the rest is answered. -/
theorem upload_resumed (digests : Digests) (homes : Client → Loc) (disjoint : HomesApart homes) (fs : FileSystem)
    (log : List FileLogInfo) (fenced : ∀ client, Fenced (homes client) fs) (writer : Nat) (path : Text)
    (earlier later : List ServerInput) (content : List UInt8) (os : Os) (p : PathBuf) (loc : Loc) (ino : Nat)
    (dir : (reached digests fs log earlier).fs.tree.isDir (homes (.ftp writer)) = true)
    (accepted : Ftp.resolve (some (.ofNames (homes (.ftp writer)))) (components path) = .ok p)
    (located : (reached digests fs log earlier).fs.locate os true p = .ok loc)
    (found : (reached digests fs log earlier).fs.tree.find loc = some (.file ino))
    (started : (reached digests fs log earlier).fs.data ino <+: content)
    (fits : Along (serverStep digests) (Fits homes) (.idle fs log) (earlier ++ later))
    (goesOn : Along (serverStep digests) (GoesOn homes writer path ino content) (reached digests fs log earlier) later) :
    (reached digests fs log (earlier ++ later)).fs.data ino <+: content ∧
      ∀ before env upload startPos count, later = before ++ [.call writer (env, .put upload path startPos)] →
        startPos.toNat + (sent upload).length = content.length →
        (serverStep digests (reached digests fs log (earlier ++ before)) (.call writer (env, .put upload path startPos))).1 =
          .called (.ok (.written count)) →
        (reached digests fs log (earlier ++ later)).fs.data ino = content := by
  obtain ⟨fitsEarlier, fitsLater⟩ := Along.append.mp fits
  have separate := separate_reached disjoint fenced fitsEarlier
  obtain ⟨below, rfl⟩ := resolve_names accepted
  have leads : Leads (homes (.ftp writer)) (reached digests fs log earlier).fs
      (.ofNames (homes (.ftp writer) ++ below)) loc :=
    ⟨_, os, (separate.fenced (.ftp writer)).settled, dir, .refl _ _, located⟩
  have partway : Partway (homes (.ftp writer)) below loc ino content (reached digests fs log earlier).fs :=
    ⟨leads, found, started⟩
  refine ⟨?_, ?_⟩
  · rw [reached_append]
    exact (partway_run disjoint separate partway accepted fitsLater goesOn).2.started
  · rintro before env upload startPos count rfl whole answered
    obtain ⟨goesBefore, last, -⟩ := Along.append.mp goesOn
    obtain ⟨fitsBefore, -⟩ := Along.append.mp fitsLater
    obtain ⟨separate', partway'⟩ := partway_run disjoint separate partway accepted fitsBefore goesBefore
    rw [← List.append_assoc, reached_append]
    rw [← reached_append] at separate' partway' last
    rcases last with quiet | ⟨env', upload', startPos', resumes⟩
    · exact absurd (quiet rfl) (by simp [ServerInput.asks, Call.reads])
    · cases resumes.call
      obtain ⟨partway'', reaches⟩ := partway'.resumes digests separate' accepted resumes
      have long := reaches count answered
      rw [whole] at long
      exact partway''.started.eq_of_length_le long

def breaksOff : ServerInput := .call 1 (permissiveCall, .put [.ok [1, 2], .error .other] "/f".toList 0)

def sendsRest : ServerInput := .call 1 (permissiveCall, .put [.ok [3]] "/f".toList 2)

theorem upload_resumed_once :
    (reached noDigests twoHomes [] ((logsIn ++ [breaksOff]) ++ ([firstMakes] ++ [sendsRest]))).fs.data 3 = [1, 2, 3] := by
  have resumed := upload_resumed noDigests homeOf homeOf_apart twoHomes [] twoHomes_fenced 1 "/f".toList
    (logsIn ++ [breaksOff]) ([firstMakes] ++ [sendsRest]) [1, 2, 3] .permissive (.ofNames ["b".toList, "f".toList])
    ["b".toList, "f".toList] 3 (by decide) (by decide) (by decide) (by decide) (by decide)
    ⟨rfl, rfl, ⟨⟨by decide, by decide⟩, by decide⟩, trivial, trivial, trivial, trivial⟩
    ⟨.inl fun same => absurd same (by decide), .inr ⟨permissiveCall, [.ok [3]], 2, rfl, by decide, List.prefix_refl _⟩, trivial⟩
  exact resumed.2 [firstMakes] permissiveCall [.ok [3]] 2 1 rfl rfl rfl

end Resume

end Wftpd.Daemon
