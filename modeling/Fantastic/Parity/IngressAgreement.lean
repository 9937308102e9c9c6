import Fantastic.Rust.WebSeal

/-!
# One rule spec, two registries

`resolve_ingress` in Python and `rule_spec` with `ingress::resolve` in Rust read the same
member of the same record. They part on what is empty but not absent, on an object whose
`type` is empty, and on an object that names its secret twice.
-/

namespace Fantastic.Parity

open Bridge (defaultTokenEnv)
open Bridge.Python (parseSpec resolveIngress constructPassword)
open Bridge.Rust (textField)
open Python (PyError Runtime getD truthy)
open Rust (legRule)

/-! ### What `resolve_ingress` builds -/

/-- A rule as Python has it before it is asked anything: the name of the secret is whatever
the spec says. -/
inductive BuiltRule where
  | allowAll
  | denyInbound
  | password (tokenEnv : Value)
  deriving DecidableEq

/-- The field `token_env` of `construct(Password, cfg)`. -/
def tokenEnvOf (config : List (String × Value)) : Value :=
  match (config.filter fun member => member.1 = "token_env").getLast? with
  | none => .str defaultTokenEnv
  | some (_, value) => value

/-- The registry lookup of `resolve_ingress`. -/
def lookupRule (runtime : Runtime) (name : Value) (config : List (String × Value)) :
    Except PyError BuiltRule :=
  match name with
  | .null => .ok .denyInbound
  | .str "allow_all" => .ok .allowAll
  | .str "deny_inbound" => .ok .denyInbound
  | .str "password" => .ok (.password (tokenEnvOf config))
  | .list _ => .error .typeError
  | .dict _ => .error .typeError
  | other => .error (.valueError ("unknown ingress rule type " ++ runtime.repr other))

/-- `resolve_ingress`. -/
def buildIngress (runtime : Runtime) (record : Dict) : Except PyError BuiltRule := do
  let spec :=
    if record.contains "ingress_rule" then getD record "ingress_rule" else getD record "auth"
  let (name, config) ← parseSpec spec
  lookupRule runtime name config

/-- The rule as it answers: a name that is no text fails when the environment is asked. -/
def BuiltRule.usable : BuiltRule → Except PyError Bridge.Python.IngressRule
  | .allowAll => .ok .allowAll
  | .denyInbound => .ok .denyInbound
  | .password (.str name) => .ok (.password name)
  | .password _ => .error .typeError

theorem usable_tokenEnvOf (config : List (String × Value)) :
    (BuiltRule.password (tokenEnvOf config)).usable = constructPassword config := by
  unfold tokenEnvOf constructPassword
  cases (config.filter fun member => member.1 = "token_env").getLast? with
  | none => rfl
  | some member =>
    obtain ⟨name, value⟩ := member
    cases value <;> rfl

/-- What is built and then asked is what the leg goes by. -/
theorem buildIngress_usable (runtime : Runtime) (record : Dict) :
    buildIngress runtime record >>= BuiltRule.usable = resolveIngress runtime record := by
  simp only [buildIngress, resolveIngress]
  generalize parseSpec
    (if record.contains "ingress_rule" then getD record "ingress_rule" else getD record "auth") =
      result
  cases result with
  | error failure => rfl
  | ok parsed =>
    obtain ⟨name, config⟩ := parsed
    simp only [bind, Except.bind, lookupRule, pure, Except.pure, throw, throwThe,
      MonadExceptOf.throw]
    symm
    split
    case h_4 => exact (usable_tokenEnvOf config).symm
    case h_7 => simp [*]
    all_goals rfl

/-! ### Agreement and when it holds -/

def SameRule : BuiltRule → Bridge.Rust.IngressRule → Prop
  | .allowAll, .allowAll => True
  | .denyInbound, .denyInbound => True
  | .password value, .password name => value = .str name
  | _, _ => False

/-- Both reject the record, or both make the same rule of it with the same secret. -/
def RulesAgree (python : Except PyError BuiltRule)
    (rust : Except String Bridge.Rust.IngressRule) : Prop :=
  match python, rust with
  | .error _, .error _ => True
  | .ok built, .ok rule => SameRule built rule
  | _, _ => False

/-- The member both sides read. -/
def specOf (record : Dict) : Option Value :=
  (record.get? "ingress_rule").or (record.get? "auth")

def registered : List String :=
  ["allow_all", "deny_inbound", "password"]

/-- The name Python looks up in the registry. -/
def ruleNameOf (members : List (String × Value)) : Value :=
  let typed := (members.lookup "type").getD .null
  if truthy typed then typed else (members.lookup "policy").getD .null

/-- A `type` that is there is not empty, or the `policy` in its place names no rule; and
without a `type` there is a `policy`. -/
def Named (members : List (String × Value)) : Prop :=
  match members.lookup "type" with
  | some typed => truthy typed = true ∨
      ruleNameOf members ≠ .null ∧ ∀ name ∈ registered, ruleNameOf members ≠ .str name
  | none => ruleNameOf members ≠ .null

/-- The last member that names the secret, if one does, is a text, and the first choice of
Rust is the same text, or none and then that text is the default. -/
def Sourced (members : List (String × Value)) : Prop :=
  ∀ member,
    (members.filter fun member => member.1 ∈ ["env", "token_env"]).getLast? = some member →
      ∃ name, member.2 = .str name ∧
        (textField members "env" "token_env").getD defaultTokenEnv = name

/-- A spec that is not empty without being absent, `null` or the empty text; as an object it
names its rule once and its secret once. -/
def Clear : Option Value → Prop
  | none => True
  | some .null => True
  | some (.str _) => True
  | some (.dict members) =>
    Named members ∧ (ruleNameOf members = .str "password" → Sourced members)
  | some other => truthy other = true


theorem specOf_getD (record : Dict) :
    (if record.contains "ingress_rule" then getD record "ingress_rule" else getD record "auth") =
      (specOf record).getD .null := by
  unfold specOf getD
  cases found : record.get? "ingress_rule" with
  | none =>
    have absent : record.contains "ingress_rule" = false := by
      rw [← Bool.not_eq_true, OrderedDict.contains_iff, ← OrderedDict.get?_eq_none_iff]
      exact found
    rw [absent]
    rfl
  | some value =>
    have present : record.contains "ingress_rule" = true := by
      rw [OrderedDict.contains_iff, OrderedDict.mem_keys_iff]
      exact ⟨value, found⟩
    rw [present]
    rfl

/-- The renamed configuration ends with the last member that names the secret. -/
theorem tokenEnvOf_config (members : List (String × Value)) :
    tokenEnvOf ((members.filter fun member => member.1 ∉ ["type", "policy"]).map fun member =>
      (if member.1 = "env" then "token_env" else member.1, member.2)) =
      match (members.filter fun member => member.1 ∈ ["env", "token_env"]).getLast? with
      | none => .str defaultTokenEnv
      | some member => member.2 := by
  have kept : ((members.filter fun member => member.1 ∉ ["type", "policy"]).map fun member =>
      (if member.1 = "env" then "token_env" else member.1, member.2)).filter
        (fun member => member.1 = "token_env") =
      (members.filter fun member => member.1 ∈ ["env", "token_env"]).map fun member =>
        ("token_env", member.2) := by
    induction members with
    | nil => rfl
    | cons member members ih =>
      obtain ⟨key, value⟩ := member
      by_cases env : key = "env"
      · subst env
        simpa using ih
      · by_cases token : key = "token_env"
        · subst token
          simpa using ih
        · by_cases skipped : key ∈ ["type", "policy"]
          · have other : ¬ key ∈ ["env", "token_env"] := by simp [env, token]
            rw [List.filter_cons_of_neg (by simp only [skipped]; decide),
              List.filter_cons_of_neg (by simpa using other)]
            exact ih
          · have other : ¬ key ∈ ["env", "token_env"] := by simp [env, token]
            rw [List.filter_cons_of_pos (by simpa using skipped),
              List.filter_cons_of_neg (by simpa using other), List.map_cons,
              List.filter_cons_of_neg (by simp [env, token])]
            exact ih
  rw [tokenEnvOf, kept, List.getLast?_map]
  cases (members.filter fun member => member.1 ∈ ["env", "token_env"]).getLast? <;> rfl

section

variable {runtime : Runtime} {debug : Value → String}

theorem lookupRule_error_iff {name : Value} {config : List (String × Value)} :
    (∃ failure, lookupRule runtime name config = .error failure) ↔
      name ≠ .null ∧ ∀ text ∈ registered, name ≠ .str text := by
  unfold lookupRule
  split
  case h_7 other notNull notAll notDeny notPassword _ _ =>
    refine iff_of_true ⟨_, rfl⟩ ⟨notNull, ?_⟩
    intro text member named
    simp only [registered, List.mem_cons, List.not_mem_nil, or_false] at member
    obtain rfl | rfl | rfl := member
    · exact notAll named
    · exact notDeny named
    · exact notPassword named
  all_goals simp [registered]

/-- A text names the same rule on both sides; only the secret can differ. -/
theorem named_agree {text : String} {config : List (String × Value)} {tokenEnv : Option String}
    {spec : Option Value} (parsed : Bridge.Rust.parseSpec debug spec = .ok (some text, tokenEnv)) :
    RulesAgree (lookupRule runtime (.str text) config) (Bridge.Rust.resolve debug spec) ↔
      (text = "password" → tokenEnvOf config = .str (tokenEnv.getD defaultTokenEnv)) := by
  by_cases all : text = "allow_all"
  · subst all
    have resolved : Bridge.Rust.resolve debug spec = .ok .allowAll := by
      rw [Bridge.Rust.resolve, parsed]
      rfl
    rw [resolved]
    simp [lookupRule, RulesAgree, SameRule]
  by_cases deny : text = "deny_inbound"
  · subst deny
    have resolved : Bridge.Rust.resolve debug spec = .ok .denyInbound := by
      rw [Bridge.Rust.resolve, parsed]
      rfl
    rw [resolved]
    simp [lookupRule, RulesAgree, SameRule]
  by_cases password : text = "password"
  · subst password
    have resolved : Bridge.Rust.resolve debug spec =
        .ok (.password (tokenEnv.getD defaultTokenEnv)) := by
      rw [Bridge.Rust.resolve, parsed]
      rfl
    rw [resolved]
    simp [lookupRule, RulesAgree, SameRule]
  · have unknown : ∃ failure, lookupRule runtime (.str text) config = .error failure := by
      rw [lookupRule_error_iff]
      simp [registered, all, deny, password]
    obtain ⟨failure, refused⟩ := unknown
    have resolved : Bridge.Rust.resolve debug spec =
        .error ("unknown ingress rule type " ++ debug (.str text)) := by
      rw [Bridge.Rust.resolve, parsed]
      simp only [bind, Except.bind]
      rfl
    rw [refused, resolved]
    simp [RulesAgree, password]

theorem refused_agree {python : Except PyError BuiltRule} {text : String} :
    RulesAgree python (.error text) ↔ ∃ failure, python = .error failure := by
  cases python <;> simp [RulesAgree]

theorem lookup_unfiltered {members : List (String × Value)} {key : String}
    (listed : key ∈ ["env", "token_env"])
    (unnamed : (members.filter fun member => member.1 ∈ ["env", "token_env"]) = []) :
    members.lookup key = none := by
  rw [List.lookup_eq_none_iff]
  intro member present
  have kept := List.filter_eq_nil_iff.mp unnamed member present
  rw [bne_iff_ne]
  intro same
  exact kept (by simpa [← same] using listed)

theorem sourced_iff (members : List (String × Value)) :
    Sourced members ↔
      (match (members.filter fun member => member.1 ∈ ["env", "token_env"]).getLast? with
        | none => .str defaultTokenEnv
        | some member => member.2) =
      Value.str ((textField members "env" "token_env").getD defaultTokenEnv) := by
  unfold Sourced
  cases last : (members.filter fun member => member.1 ∈ ["env", "token_env"]).getLast? with
  | none =>
    have unnamed := List.getLast?_eq_none_iff.mp last
    rw [textField, lookup_unfiltered (by simp) unnamed, lookup_unfiltered (by simp) unnamed]
    simp
  | some member =>
    constructor
    · intro sourced
      obtain ⟨name, text, same⟩ := sourced member rfl
      rw [same]
      exact text
    · intro text other found
      cases found
      exact ⟨_, text, rfl⟩

theorem parseSpec_dict {members : List (String × Value)} (filled : members ≠ []) :
    parseSpec (.dict members) = .ok (ruleNameOf members,
      (members.filter fun member => member.1 ∉ ["type", "policy"]).map fun member =>
        (if member.1 = "env" then "token_env" else member.1, member.2)) := by
  have solid : truthy (.dict members) = true := by simp [truthy, filled]
  rw [parseSpec, solid]
  rfl

/-- An object whose name is the same text on both sides. -/
theorem dict_agree {members : List (String × Value)} {text : String}
    (named : ruleNameOf members = .str text) (rust : textField members "type" "policy" = some text)
    (filled : members ≠ []) :
    RulesAgree (parseSpec (.dict members) >>= fun parsed => lookupRule runtime parsed.1 parsed.2)
        (Bridge.Rust.resolve debug (some (.dict members))) ↔
      (text = "password" → Sourced members) := by
  have parsed : Bridge.Rust.parseSpec debug (some (.dict members)) =
      .ok (some text, textField members "env" "token_env") := by
    rw [Bridge.Rust.parseSpec, rust]
  rw [parseSpec_dict filled, named]
  simp only [bind, Except.bind]
  rw [named_agree parsed, tokenEnvOf_config, sourced_iff]

/-- An object Rust rejects is rejected in Python with a name that is no rule's. -/
theorem refused_dict_agree {members : List (String × Value)}
    (refused : ∃ text, Bridge.Rust.resolve debug (some (.dict members)) = .error text)
    (filled : members ≠ [])
    (same : Named members ↔
      ruleNameOf members ≠ .null ∧ ∀ text ∈ registered, ruleNameOf members ≠ .str text) :
    RulesAgree (parseSpec (.dict members) >>= fun parsed => lookupRule runtime parsed.1 parsed.2)
        (Bridge.Rust.resolve debug (some (.dict members))) ↔
      Clear (some (.dict members)) := by
  obtain ⟨text, refused⟩ := refused
  rw [refused, refused_agree, parseSpec_dict filled, Clear, same]
  constructor
  · intro rejected
    have unregistered := lookupRule_error_iff.mp rejected
    refine ⟨unregistered, ?_⟩
    intro password
    exact absurd password (unregistered.2 "password" (by simp [registered]))
  · intro clear
    exact lookupRule_error_iff.mpr clear.1

theorem resolve_nameless {members : List (String × Value)}
    (nameless : textField members "type" "policy" = none) :
    ∃ text, Bridge.Rust.resolve debug (some (.dict members)) = .error text := by
  rw [Bridge.Rust.resolve, Bridge.Rust.parseSpec, nameless]
  exact ⟨_, rfl⟩

theorem resolve_empty_name {members : List (String × Value)}
    (empty : textField members "type" "policy" = some "") :
    ∃ text, Bridge.Rust.resolve debug (some (.dict members)) = .error text := by
  rw [Bridge.Rust.resolve, Bridge.Rust.parseSpec, empty]
  exact ⟨_, rfl⟩

theorem textField_eq_some_iff {members : List (String × Value)} {name other text : String} :
    textField members name other = some text ↔
      (members.lookup name).or (members.lookup other) = some (.str text) := by
  unfold textField
  cases found : (members.lookup name).or (members.lookup other) with
  | none => simp
  | some value => cases value <;> simp

theorem textField_eq_none_iff {members : List (String × Value)} {name other : String} :
    textField members name other = none ↔
      ∀ text, (members.lookup name).or (members.lookup other) ≠ some (.str text) := by
  rw [Option.eq_none_iff_forall_ne_some]
  exact forall_congr' fun text => not_congr textField_eq_some_iff

/-- Without a `type` both sides go by the `policy`. -/
theorem untyped_agree {members : List (String × Value)} (filled : members ≠ [])
    (untyped : members.lookup "type" = none) :
    RulesAgree (parseSpec (.dict members) >>= fun parsed => lookupRule runtime parsed.1 parsed.2)
        (Bridge.Rust.resolve debug (some (.dict members))) ↔
      Clear (some (.dict members)) := by
  have name : ruleNameOf members = (members.lookup "policy").getD .null := by
    rw [ruleNameOf, untyped]
    rfl
  have named : Named members ↔ ruleNameOf members ≠ .null := by
    rw [Named, untyped]
  cases found : textField members "type" "policy" with
  | none =>
    refine refused_dict_agree (resolve_nameless found) filled ?_
    rw [named, name]
    have notText := textField_eq_none_iff.mp found
    rw [untyped, Option.none_or] at notText
    refine ⟨fun some' => ⟨some', ?_⟩, And.left⟩
    intro text _ same
    cases policy : members.lookup "policy" with
    | none => simp [policy] at same
    | some value =>
      rw [policy, Option.getD_some] at same
      exact notText text (by rw [policy, same])
  | some text =>
    have policy := textField_eq_some_iff.mp found
    rw [untyped, Option.none_or] at policy
    rw [policy] at name
    rw [dict_agree name found filled, Clear, named, name]
    simp

/-- With a `type` Python goes by the `policy` when the `type` is empty. -/
theorem typed_agree {members : List (String × Value)} {typed : Value} (filled : members ≠ [])
    (found : members.lookup "type" = some typed) :
    RulesAgree (parseSpec (.dict members) >>= fun parsed => lookupRule runtime parsed.1 parsed.2)
        (Bridge.Rust.resolve debug (some (.dict members))) ↔
      Clear (some (.dict members)) := by
  have named : Named members ↔ (truthy typed = true ∨
      ruleNameOf members ≠ .null ∧ ∀ name ∈ registered, ruleNameOf members ≠ .str name) := by
    rw [Named, found]
  by_cases solid : truthy typed = true
  · have name : ruleNameOf members = typed := by
      rw [ruleNameOf, found, Option.getD_some, if_pos solid]
    cases rust : textField members "type" "policy" with
    | none =>
      have notText := textField_eq_none_iff.mp rust
      rw [found, Option.some_or] at notText
      refine refused_dict_agree (resolve_nameless rust) filled ?_
      rw [named, name]
      refine iff_of_true (Or.inl solid) ⟨?_, ?_⟩
      · intro null
        rw [null] at solid
        exact absurd solid (by decide)
      · intro text _ same
        exact notText text (by rw [same])
    | some text =>
      have same := textField_eq_some_iff.mp rust
      rw [found, Option.some_or, Option.some_inj] at same
      rw [dict_agree (name.trans same) rust filled, Clear, named, name, same]
      rw [same] at solid
      simp [solid]
  · have refused : ∃ text, Bridge.Rust.resolve debug (some (.dict members)) = .error text := by
      cases rust : textField members "type" "policy" with
      | none => exact resolve_nameless rust
      | some text =>
        have same := textField_eq_some_iff.mp rust
        rw [found, Option.some_or, Option.some_inj] at same
        have empty : text = "" := by simpa [same, truthy] using solid
        exact resolve_empty_name (by rw [rust, empty])
    refine refused_dict_agree refused filled ?_
    rw [named]
    simp [solid]

theorem dicts_agree (members : List (String × Value)) :
    RulesAgree (parseSpec (.dict members) >>= fun parsed => lookupRule runtime parsed.1 parsed.2)
        (Bridge.Rust.resolve debug (some (.dict members))) ↔
      Clear (some (.dict members)) := by
  by_cases filled : members = []
  · subst filled
    constructor
    · intro agree
      exact agree.elim
    · intro clear
      exact absurd rfl clear.1
  · cases typed : members.lookup "type" with
    | none => exact untyped_agree filled typed
    | some value => exact typed_agree filled typed

/-- What is neither a text nor an object is rejected by Rust, and by Python unless empty. -/
theorem scalar_agree {spec : Value} {text : String}
    (rust : Bridge.Rust.resolve debug (some spec) = .error text)
    (python : truthy spec = true → parseSpec spec = .error .attributeError) :
    RulesAgree (parseSpec spec >>= fun parsed => lookupRule runtime parsed.1 parsed.2)
        (Bridge.Rust.resolve debug (some spec)) ↔
      truthy spec = true := by
  rw [rust, refused_agree]
  by_cases solid : truthy spec = true
  · rw [python solid]
    exact iff_of_true ⟨_, rfl⟩ solid
  · have sealed : parseSpec spec = .ok (.null, []) := by
      unfold parseSpec
      rw [if_pos (by simp [solid])]
    rw [sealed]
    refine iff_of_false ?_ solid
    intro rejected
    obtain ⟨failure, rejected⟩ := rejected
    exact absurd rejected (by simp [bind, Except.bind, lookupRule])

theorem text_agree (text : String) :
    RulesAgree (parseSpec (.str text) >>= fun parsed => lookupRule runtime parsed.1 parsed.2)
      (Bridge.Rust.resolve debug (some (.str text))) := by
  by_cases empty : text = ""
  · subst empty
    exact trivial
  · have python : parseSpec (.str text) = .ok (.str text, []) := by
      simp [parseSpec, truthy, empty]
    have rust : Bridge.Rust.parseSpec debug (some (.str text)) = .ok (some text, none) := by
      simp [Bridge.Rust.parseSpec, empty]
    rw [python]
    exact (named_agree rust).mpr fun _ => rfl

end

/-- The two runtimes make the same of a record exactly when its spec is clear. -/
theorem resolution_agrees_iff (runtime : Runtime) (debug : Value → String) (record : Dict) :
    RulesAgree (buildIngress runtime record) (legRule debug record) ↔ Clear (specOf record) := by
  have python : buildIngress runtime record =
      parseSpec ((specOf record).getD .null) >>= fun parsed =>
        lookupRule runtime parsed.1 parsed.2 := by
    simp only [buildIngress, specOf_getD]
  have rust : legRule debug record = Bridge.Rust.resolve debug (specOf record) := rfl
  rw [python, rust]
  cases specOf record with
  | none => exact Iff.rfl
  | some spec =>
    rw [Option.getD_some]
    cases spec with
    | null => exact Iff.rfl
    | str text => exact iff_of_true (text_agree text) trivial
    | dict members => exact dicts_agree members
    | _ =>
      refine scalar_agree rfl ?_
      intro solid
      unfold parseSpec
      rw [if_neg (by simp [solid])]

/-- A record that names its secret under the old key and under the new one. -/
def twiceNamed : Dict :=
  OrderedDict.empty.insert "ingress_rule" (.dict [("type", .str "password"),
    ("env", .str "LEG_TOKEN"), ("token_env", .str "OLD_TOKEN")])

def unquoted : Runtime where
  importable := fun _ => true
  repr := fun _ => ""
  str := fun _ => ""

theorem second_secret_parts_the_runtimes :
    buildIngress unquoted twiceNamed = .ok (.password (.str "OLD_TOKEN")) ∧
      legRule (fun _ => "") twiceNamed = .ok (.password "LEG_TOKEN") ∧
      ¬ RulesAgree (buildIngress unquoted twiceNamed) (legRule (fun _ => "") twiceNamed) := by
  have python : buildIngress unquoted twiceNamed = .ok (.password (.str "OLD_TOKEN")) :=
    rfl
  have rust : legRule (fun _ => "") twiceNamed = .ok (.password "LEG_TOKEN") :=
    rfl
  refine ⟨python, rust, ?_⟩
  rw [python, rust]
  simp [RulesAgree, SameRule]

end Fantastic.Parity
