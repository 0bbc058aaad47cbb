import Wftpd.Ftp.Resolve
import Wftpd.Sftp.Resolve

/-! The two front ends read a path alike, below one home.

One walks from the root what follows the leading separator; the other joins the text
to home, takes home off again and walks the rest.
-/

set_option autoImplicit false

namespace Wftpd.Daemon
open Wftpd.Posix

/-- A path that does not name the real home leads both front ends to one location, or
both refuse it. -/
theorem resolve_agree (homeDir path : Text) (home : Sftp.IsHome homeDir) (trimmed : trim path = path)
    (apart : ¬ components homeDir <+: components path) (location : PathBuf) :
    Ftp.resolve (some (components homeDir)) (components path) = .ok location ↔
      Sftp.resolve homeDir path = .ok location := by
  have plain : ∀ within, ¬ Sftp.CarriesHome homeDir path within := by
    rintro within ⟨-, -, same⟩
    rw [trimmed] at same
    exact apart ⟨within, same.symm⟩
  rw [Sftp.resolve_below home.components_ne_nil plain, trimmed, Ftp.resolve_below home.components_ne_nil]
  -- both cancel the same names, and differ in how they refuse
  cases cancel [] (body path) with
  | none => simp only [reduceCtorEq]
  | some below => simp only [Except.ok.injEq]

theorem resolve_agree_relative :
    Ftp.resolve (some (components "/h".toList)) (components "/a/../b".toList) = .ok (.ofNames ["h".toList, "b".toList]) ↔
      Sftp.resolve "/h".toList "/a/../b".toList = .ok (.ofNames ["h".toList, "b".toList]) :=
  resolve_agree "/h".toList "/a/../b".toList ⟨by decide, by decide⟩ (by decide) (by decide) _

end Wftpd.Daemon
