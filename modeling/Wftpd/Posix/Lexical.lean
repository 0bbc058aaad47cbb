import Wftpd.Posix.Path

/-! Lexical resolution below an anchor: each `..` cancels the last name still
standing, and one that finds nothing to cancel leaves the anchor.
-/

set_option autoImplicit false

namespace Wftpd.Posix

/-- The names left standing, or nothing when some `..` has no name to cancel. -/
def cancel : List Name → PathBuf → Option (List Name)
  | names, [] => some names
  | names, .normal name :: rest => cancel (names ++ [name]) rest
  | names, .curDir :: rest => cancel names rest
  | names, .parentDir :: rest => if names = [] then none else cancel names.dropLast rest
  | _, .rootDir :: _ => none

@[simp] theorem cancel_normal (names : List Name) (name : Name) (rest : PathBuf) :
    cancel names (.normal name :: rest) = cancel (names ++ [name]) rest := rfl

@[simp] theorem cancel_parentDir (names : List Name) (rest : PathBuf) :
    cancel names (.parentDir :: rest) = if names = [] then none else cancel names.dropLast rest := rfl

def Component.isNormal : Component → Bool
  | .normal _ => true
  | .rootDir | .curDir | .parentDir => false

@[simp] theorem isNormal_normal (name : Name) : (Component.normal name).isNormal = true := rfl
@[simp] theorem isNormal_rootDir : Component.rootDir.isNormal = false := rfl
@[simp] theorem isNormal_curDir : Component.curDir.isNormal = false := rfl
@[simp] theorem isNormal_parentDir : Component.parentDir.isNormal = false := rfl

/-- Read from the left, the `..` never outnumber the names before them and those standing. -/
def BalancedOver (standing : Nat) (path : PathBuf) : Prop :=
  ∀ front, front <+: path → front.count .parentDir ≤ standing + front.countP Component.isNormal

def Balanced (path : PathBuf) : Prop := BalancedOver 0 path

/-- The names standing after one more component. -/
def survive (names : List Name) : Component → List Name
  | .normal name => names ++ [name]
  | .parentDir => names.dropLast
  | .curDir | .rootDir => names

def survivors (path : PathBuf) : List Name := path.foldl survive []

theorem balancedOver_cons {standing : Nat} {component : Component} {rest : PathBuf} :
    BalancedOver standing (component :: rest) ↔
      ∀ front, front <+: rest →
        (component :: front).count .parentDir ≤ standing + (component :: front).countP Component.isNormal := by
  constructor
  · intro balanced front isPrefix
    exact balanced (component :: front) ((List.prefix_cons_inj component).mpr isPrefix)
  · intro balanced front isPrefix
    rcases List.prefix_cons_iff.mp isPrefix with rfl | ⟨shorter, rfl, within⟩
    · exact Nat.zero_le _
    · exact balanced shorter within

@[simp] theorem balancedOver_normal {standing : Nat} {name : Name} {rest : PathBuf} :
    BalancedOver standing (.normal name :: rest) ↔ BalancedOver (standing + 1) rest := by
  rw [balancedOver_cons]
  simp [BalancedOver, List.countP_cons, Nat.add_assoc, Nat.add_comm 1]

@[simp] theorem balancedOver_parentDir {standing : Nat} {rest : PathBuf} :
    BalancedOver standing (.parentDir :: rest) ↔ 0 < standing ∧ BalancedOver (standing - 1) rest := by
  rw [balancedOver_cons]
  simp only [BalancedOver, List.count_cons_self, isNormal_parentDir, Bool.false_eq_true, not_false_eq_true,
    List.countP_cons_of_neg]
  constructor
  · intro balanced
    have first : 1 ≤ standing := by simpa using balanced [] List.nil_prefix
    refine ⟨first, fun front isPrefix => ?_⟩
    have bound := balanced front isPrefix
    omega
  · rintro ⟨positive, balanced⟩ front isPrefix
    have bound := balanced front isPrefix
    omega

/-- A component that neither names nor climbs changes nothing. -/
theorem balancedOver_skip {standing : Nat} {component : Component} {rest : PathBuf}
    (silent : component = .curDir ∨ component = .rootDir) :
    BalancedOver standing (component :: rest) ↔ BalancedOver standing rest := by
  rw [balancedOver_cons]
  rcases silent with rfl | rfl <;> simp [BalancedOver]

theorem cancel_eq_some_iff {names below : List Name} {path : PathBuf} (relative : .rootDir ∉ path) :
    cancel names path = some below ↔ BalancedOver names.length path ∧ below = path.foldl survive names := by
  -- the names standing are the stack, and their number is what the rest may climb
  induction path generalizing names with
  | nil => simp [cancel, BalancedOver, eq_comm]
  | cons component rest ih =>
      have later : .rootDir ∉ rest := fun member => relative (by simp [member])
      cases component with
      | rootDir => simp at relative
      | curDir =>
          rw [balancedOver_skip (.inl rfl)]
          exact ih later
      | normal name => simpa [survive] using @ih (names ++ [name]) later
      | parentDir =>
          rcases List.eq_nil_or_concat names with rfl | ⟨front, last, rfl⟩
          · simp
          · simpa [survive] using @ih front later

theorem length_cancel {names below : List Name} {path : PathBuf} (cancelled : cancel names path = some below) :
    below.length ≤ names.length + path.length := by
  induction path generalizing names with
  | nil =>
      cases cancelled
      exact Nat.le_refl _
  | cons component rest ih =>
      rw [List.length_cons]
      cases component with
      | rootDir => cases cancelled
      | curDir =>
          have bound := ih cancelled
          omega
      | normal name =>
          have bound := ih cancelled
          rw [List.length_append, List.length_singleton] at bound
          omega
      | parentDir =>
          rw [cancel_parentDir] at cancelled
          split at cancelled
          · cases cancelled
          · have bound := ih cancelled
            rw [List.length_dropLast] at bound
            omega

theorem cancel_full {names below : List Name} {path : PathBuf} (cancelled : cancel names path = some below)
    (full : names.length + path.length ≤ below.length) : below.map .normal = names.map .normal ++ path := by
  induction path generalizing names with
  | nil =>
      cases cancelled
      exact (List.append_nil _).symm
  | cons component rest ih =>
      rw [List.length_cons] at full
      cases component with
      | rootDir => cases cancelled
      | curDir =>
          have bound : below.length ≤ names.length + rest.length := length_cancel cancelled
          omega
      | normal name =>
          have step := @ih (names ++ [name]) cancelled (by rw [List.length_append, List.length_singleton]; omega)
          simpa using step
      | parentDir =>
          rw [cancel_parentDir] at cancelled
          split at cancelled
          · cases cancelled
          · have bound := length_cancel cancelled
            rw [List.length_dropLast] at bound
            omega

theorem cancel_names (names more : List Name) : cancel names (more.map .normal) = some (names ++ more) := by
  induction more generalizing names with
  | nil => simp [cancel]
  | cons name rest ih => simpa using ih (names ++ [name])

theorem mem_cancel {names below : List Name} {path : PathBuf} (cancelled : cancel names path = some below)
    {name : Name} (member : name ∈ below) : name ∈ names ∨ .normal name ∈ path := by
  induction path generalizing names with
  | nil =>
      cases cancelled
      exact .inl member
  | cons component rest ih =>
      cases component with
      | rootDir => cases cancelled
      | curDir => exact (ih cancelled).imp_right (List.mem_cons_of_mem _)
      | normal other =>
          rcases ih cancelled with standing | later
          · rcases List.mem_append.mp standing with before | here
            · exact .inl before
            · rw [List.mem_singleton.mp here]
              exact .inr List.mem_cons_self
          · exact .inr (List.mem_cons_of_mem _ later)
      | parentDir =>
          rw [cancel_parentDir] at cancelled
          split at cancelled
          · cases cancelled
          · exact (ih cancelled).imp List.mem_of_mem_dropLast (List.mem_cons_of_mem _)

/-- What cancels nothing of what was standing before leaves it standing. -/
theorem foldl_survive_of_cancel {names below : List Name} {path : PathBuf} (cancelled : cancel names path = some below)
    (front : List Name) : path.foldl survive (front ++ names) = front ++ below := by
  induction path generalizing names with
  | nil =>
      cases cancelled
      rfl
  | cons component rest ih =>
      rw [List.foldl_cons]
      cases component with
      | rootDir => cases cancelled
      | curDir => exact ih cancelled
      | normal name =>
          rw [survive, List.append_assoc]
          exact ih cancelled
      | parentDir =>
          rw [cancel_parentDir] at cancelled
          split at cancelled
          · cases cancelled
          · next standing =>
              rw [survive, List.dropLast_append_of_ne_nil standing]
              exact ih cancelled

theorem survivors_ofNames (names : List Name) : survivors (.ofNames names) = names := by
  have kept := foldl_survive_of_cancel (cancel_names [] names) []
  rwa [List.nil_append, List.nil_append, List.nil_append] at kept

theorem components_lead (path : Text) :
    components path = body path ∨
      ∃ lead, (lead = .curDir ∨ lead = .rootDir) ∧ components path = lead :: body path := by
  cases absolute : startsWith '/' path with
  | true => exact .inr ⟨.rootDir, .inr rfl, components_absolute absolute⟩
  | false =>
      rcases components_relative absolute with same | same
      · exact .inl same
      · exact .inr ⟨.curDir, .inl rfl, same⟩

theorem balanced_components (path : Text) : Balanced (components path) ↔ Balanced (body path) := by
  rcases components_lead path with same | ⟨lead, silent, same⟩
  · rw [same]
  · rw [same]
    exact balancedOver_skip silent

theorem survivors_components (path : Text) : survivors (components path) = survivors (body path) := by
  rcases components_lead path with same | ⟨lead, silent, same⟩
  · rw [same]
  · rw [same, survivors, List.foldl_cons]
    rcases silent with rfl | rfl <;> rfl

theorem rootDir_not_mem_body (path : Text) : .rootDir ∉ body path := by
  intro member
  rcases body_cases member with isParent | ⟨name, isName⟩
  · cases isParent
  · cases isName

/-- What follows the leading separator cancels as the whole path does. -/
theorem cancel_stripped (names : List Name) (path : Text) :
    cancel names (((components path).stripPrefix [.rootDir]).getD (components path)) = cancel names (body path) := by
  cases absolute : startsWith '/' path with
  | true =>
      have shape : components path = [.rootDir] ++ body path := components_absolute absolute
      rw [shape, PathBuf.stripPrefix_append]
      rfl
  | false =>
      have kept : (components path).stripPrefix [.rootDir] = none := by
        cases stripped : (components path).stripPrefix [.rootDir] with
        | none => rfl
        | some rest =>
            have shape := PathBuf.stripPrefix_eq_some.mp stripped
            have relative := components_relative_not_absolute absolute
            simp [shape, PathBuf.isAbsolute] at relative
      rw [kept, Option.getD_none]
      rcases components_relative absolute with same | same
      · rw [same]
      · rw [same]
        rfl

/-- A whole path cancels from nothing exactly when it is balanced, and leaves its survivors. -/
theorem cancel_body_iff (path : Text) (below : List Name) :
    cancel [] (body path) = some below ↔ Balanced (components path) ∧ below = survivors (components path) := by
  rw [balanced_components, survivors_components]
  exact cancel_eq_some_iff (rootDir_not_mem_body path)

end Wftpd.Posix
