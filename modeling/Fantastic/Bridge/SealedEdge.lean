import Fantastic.Bridge.IngressRules

/-!
# The sealed edge across runtimes

Where the two hand-written rule families agree. The Rust rules let every inbound kind
but `call` through, so `deny_inbound` and `password` are a seal on calls only; the
Python rules gate every kind, and their comparison of secrets is partial.
-/

namespace Fantastic.Bridge

/-- What a rule decided, or nothing when it raised. -/
def Rust.verdict : Rust.Decision → Option Bool
  | .allow => some true
  | .deny _ => some false

def Python.verdict : Except Python.PyError Python.Decision → Option Bool
  | .ok decision => some decision.allowed
  | .error _ => none

/-- The presented token is the configured, non-empty secret. -/
def SecretMatches (env : Environment) (tokenEnv : String) (action : Action) : Prop :=
  ∃ secret, secret ≠ "" ∧ env tokenEnv = some (.text secret) ∧ action.token = some secret

/-- Both `deny_inbound` rules refuse the action. -/
def DenyInboundSeals (action : Action) : Prop :=
  Rust.verdict (Rust.authorizeDenyInbound action) = some false ∧
    Python.verdict (.ok (Python.authorizeDenyInbound action)) = some false

/-- Both `password` rules decide the action alike, and by the secret alone. -/
def PasswordsAgree (env : Environment) (tokenEnv : String) (action : Action) : Prop :=
  Rust.verdict (Rust.authorizePassword env tokenEnv action) =
      Python.verdict (Python.authorizePassword env tokenEnv action) ∧
    (Rust.verdict (Rust.authorizePassword env tokenEnv action) = some true ↔
      SecretMatches env tokenEnv action)

/-- No comparison, or one of two ASCII texts: where `hmac.compare_digest` is defined. -/
def AsciiComparison (env : Environment) (tokenEnv : String) (action : Action) : Prop :=
  ∀ presented, action.token = some presented →
    ∀ expected, Python.envToken env tokenEnv = some expected →
      Python.isAscii presented = true ∧
        ∃ secret, expected = .text secret ∧ Python.isAscii secret = true

/-! ### The comparison of bytes -/

private theorem foldl_or_eq_zero (pairs : List (UInt8 × UInt8)) (start : UInt8) :
    pairs.foldl (fun diff pair => diff ||| (pair.1 ^^^ pair.2)) start = 0 ↔
      start = 0 ∧ ∀ pair ∈ pairs, pair.1 = pair.2 := by
  induction pairs generalizing start with
  | nil => simp
  | cons pair rest ih =>
    rw [List.foldl_cons, ih, UInt8.or_eq_zero_iff, UInt8.xor_eq_zero_iff]
    simp [and_assoc]

private theorem zip_equal_iff {left right : List UInt8} (lengths : left.length = right.length) :
    (∀ pair ∈ left.zip right, pair.1 = pair.2) ↔ left = right := by
  induction left generalizing right with
  | nil =>
    cases right with
    | nil => simp
    | cons other rest => simp at lengths
  | cons head tail ih =>
    cases right with
    | nil => simp at lengths
    | cons other rest =>
      have tailLengths : tail.length = rest.length := by simpa using lengths
      rw [List.zip_cons_cons, List.forall_mem_cons, ih tailLengths, List.cons.injEq]

theorem Rust.constantTimeEq_iff (left right : List UInt8) :
    Rust.constantTimeEq left right = true ↔ left = right := by
  unfold Rust.constantTimeEq
  by_cases lengths : left.length = right.length
  · rw [if_neg (by simpa using lengths), beq_iff_eq, foldl_or_eq_zero, zip_equal_iff lengths]
    simp
  · rw [if_pos lengths]
    simp only [Bool.false_eq_true, false_iff]
    rintro rfl
    exact lengths rfl

theorem Rust.tokens_equal_iff (presented expected : String) :
    Rust.constantTimeEq (utf8 presented) (utf8 expected) = true ↔ presented = expected := by
  rw [Rust.constantTimeEq_iff]
  exact ⟨utf8_injective, congrArg utf8⟩

/-! ### What each rule decides -/

theorem Rust.denyInbound_verdict (action : Action) :
    Rust.verdict (Rust.authorizeDenyInbound action) = some (decide (action.kind ≠ .call)) := by
  by_cases call : action.kind = .call <;> simp [Rust.authorizeDenyInbound, call, Rust.verdict]

section Password

variable (env : Environment) (tokenEnv : String) (action : Action)

theorem Rust.password_other_kind (other : action.kind ≠ .call) :
    Rust.verdict (Rust.authorizePassword env tokenEnv action) = some true := by
  simp [Rust.authorizePassword, other, Rust.verdict]

theorem Rust.password_call (call : action.kind = .call) :
    (Rust.verdict (Rust.authorizePassword env tokenEnv action) = some true ↔
      SecretMatches env tokenEnv action) ∧
    (Rust.verdict (Rust.authorizePassword env tokenEnv action) = some true ∨
      Rust.verdict (Rust.authorizePassword env tokenEnv action) = some false) := by
  rw [Rust.authorizePassword, if_neg (by simpa using call)]
  cases held : env tokenEnv with
  | none => simp [Rust.envToken, held, Rust.verdict, SecretMatches]
  | some value =>
    cases value with
    | undecodable => simp [Rust.envToken, held, Rust.verdict, SecretMatches]
    | text secret =>
      by_cases empty : secret = ""
      · simp [Rust.envToken, held, empty, Rust.verdict, SecretMatches]
      · cases presented : action.token with
        | none => simp [Rust.envToken, held, empty, Rust.verdict, SecretMatches, presented]
        | some token =>
          by_cases same : token = secret
          · subst same
            have equal := (Rust.tokens_equal_iff token token).mpr rfl
            simp [Rust.envToken, held, empty, equal, Rust.verdict, SecretMatches, presented]
          · have differs : Rust.constantTimeEq (utf8 token) (utf8 secret) = false := by
              rw [← Bool.not_eq_true, Rust.tokens_equal_iff]
              exact same
            simp [Rust.envToken, held, empty, differs, Rust.verdict, SecretMatches,
              presented, Ne.symm same]

theorem Python.password_compared (ascii : AsciiComparison env tokenEnv action) :
    (Python.verdict (Python.authorizePassword env tokenEnv action) = some true ↔
      SecretMatches env tokenEnv action) ∧
    (Python.verdict (Python.authorizePassword env tokenEnv action) = some true ∨
      Python.verdict (Python.authorizePassword env tokenEnv action) = some false) := by
  rw [Python.authorizePassword]
  cases held : Python.envToken env tokenEnv with
  | none =>
    have unset : ¬ SecretMatches env tokenEnv action := by
      rintro ⟨secret, nonempty, stored, _⟩
      simp [Python.envToken, stored, nonempty] at held
    simp [Python.verdict, Python.Decision.refuse, unset]
  | some expected =>
    cases presented : action.token with
    | none => simp [Python.verdict, Python.Decision.refuse, SecretMatches, presented]
    | some token =>
      rcases ascii token presented expected held with ⟨tokenAscii, secret, rfl, secretAscii⟩
      have stored : env tokenEnv = some (.text secret) ∧ secret ≠ "" := by
        simp only [Python.envToken] at held
        split at held
        · split at held <;> simp_all
        · rename_i unread
          exact absurd held (unread secret)
      by_cases same : token = secret
      · subst same
        simp [Python.verdict, Python.compareDigest, Python.Decision.allow, tokenAscii,
          SecretMatches, stored, presented, bind, Except.bind, pure, Except.pure]
      · simp [Python.verdict, Python.compareDigest, Python.Decision.refuse, tokenAscii,
          secretAscii, same, SecretMatches, stored, presented, Ne.symm same, bind, Except.bind,
          pure, Except.pure]

theorem Python.password_raises (unsupported : ¬ AsciiComparison env tokenEnv action) :
    Python.verdict (Python.authorizePassword env tokenEnv action) = none := by
  simp only [AsciiComparison, not_forall] at unsupported
  rcases unsupported with ⟨token, presented, expected, held, notAscii⟩
  have raised : Python.compareDigest token expected = .error .typeError := by
    cases expected with
    | undecodable => rfl
    | text secret =>
      rw [Python.compareDigest, if_neg]
      rw [Bool.and_eq_true]
      rintro ⟨tokenAscii, secretAscii⟩
      exact notAscii ⟨tokenAscii, secret, rfl, secretAscii⟩
  simp [Python.authorizePassword, held, presented, raised, bind, Except.bind, Python.verdict]

theorem passwordsAgree_iff :
    PasswordsAgree env tokenEnv action ↔
      (action.kind = .call ∨ SecretMatches env tokenEnv action) ∧
        AsciiComparison env tokenEnv action := by
  constructor
  · rintro ⟨agree, bySecret⟩
    have ascii : AsciiComparison env tokenEnv action := by
      by_contra unsupported
      rw [Python.password_raises env tokenEnv action unsupported] at agree
      by_cases call : action.kind = .call
      · rcases (Rust.password_call env tokenEnv action call).2 with decided | decided <;>
          simp [decided] at agree
      · simp [Rust.password_other_kind env tokenEnv action call] at agree
    refine ⟨?_, ascii⟩
    by_cases call : action.kind = .call
    · exact .inl call
    · exact .inr (bySecret.mp (Rust.password_other_kind env tokenEnv action call))
  · rintro ⟨gated, ascii⟩
    have python := Python.password_compared env tokenEnv action ascii
    by_cases call : action.kind = .call
    · have rust := Rust.password_call env tokenEnv action call
      refine ⟨?_, rust.1⟩
      by_cases matches_ : SecretMatches env tokenEnv action
      · rw [rust.1.mpr matches_, python.1.mpr matches_]
      · rw [rust.2.resolve_left (fun allowed => matches_ (rust.1.mp allowed)),
          python.2.resolve_left (fun allowed => matches_ (python.1.mp allowed))]
    · have matched := gated.resolve_left call
      rw [PasswordsAgree, Rust.password_other_kind env tokenEnv action call, python.1.mpr matched]
      simp [matched]

end Password

end Fantastic.Bridge
