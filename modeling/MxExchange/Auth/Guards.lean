import MxExchange.Collections.Runs

/-!
# The guards of a request

`JwtOrNativeAuthGuard` lets a request in if one of two guards does: the one
verifies the token of the request as a JWT, the other as a native token.
Each keeps the request's `impersonate-address` header in a field of its
instance, waits for the verification, and then reads the field again.

The two are made anew for every execution, and no instance serves two
(`Inv.own`). So whatever is executed at the same time, what a request ends
up with is a matter of its own token and header (`admitted_own_address`).
-/

namespace MxExchange.Auth

open MxExchange.Collections

/-- The headers the guards read. -/
structure Headers where
  authorization : Option String
  impersonateAddress : Option String

/-- The payload of a JWT. -/
structure JwtPayload where
  sub : Option String
  exp : ℕ
  iat : ℕ
  iss : Option String

/-- What the native server says of a token that is valid. -/
structure NativeUserInfo where
  address : String
  signerAddress : String
  expires : ℕ
  issued : ℕ
  origin : String

/-- `req.auth`. -/
structure UserAuth where
  address : Option String
  expires : ℕ
  issued : ℕ
  host : Option String

/-- The verification of a token in the two schemes, and the addresses in
`SECURITY_ADMINS`, if that is set. -/
structure AuthEnv where
  verify : String → Option JwtPayload
  validate : String → Option NativeUserInfo
  admins : Option (List String)

/-- A string that `if` takes for true. -/
def truthy (s : Option String) : Option String := s.filter (· ≠ "")

/-- `replace` with a string: its first occurrence goes. -/
def removeFirst (pattern : List Char) : List Char → List Char
  | [] => []
  | c :: cs =>
    if pattern.isPrefixOf (c :: cs) then (c :: cs).drop pattern.length
    else c :: removeFirst pattern cs

/-- The token of a request; none is taken from an empty header. -/
def token (headers : Headers) : Option String :=
  (truthy headers.authorization).map fun authorization =>
    String.ofList (removeFirst "Bearer ".toList authorization.toList)

/-- Whether an address is found among the administrators. -/
def isAdmin (admins : List String) (address : Option String) : Bool :=
  (truthy (admins.find? fun admin => some admin = address)).isSome

/-- The address after the check for impersonation, given the guard's field;
nothing if the check throws. -/
def impersonate (env : AuthEnv) (field signer address : Option String) :
    Option (Option String) :=
  match truthy field with
  | none => some address
  | some impersonateAddress =>
    env.admins.map fun admins => if isAdmin admins signer then some impersonateAddress else address

/-- Where a guard is: not called yet, waiting for the token to be verified,
done with an answer, or thrown out of. -/
inductive Phase where
  | ready
  | verifying (jwt : String)
  | done (answer : Bool)
  | thrown
  deriving DecidableEq

/-- What a request ends with. -/
inductive Response where
  | admitted
  | denied
  | unauthorized
  deriving DecidableEq

/-- One execution of `JwtOrNativeAuthGuard.canActivate`: the request it is
for, the two instances it has made, and how far it is. -/
structure Execution (ρ : Type) where
  request : ρ
  jwtGuard : ℕ
  nativeAuthGuard : ℕ
  jwt : Phase
  native : Phase
  response : Option Response

/-- Instances are numbered as they are made. `impersonateAddress` is the
field of each, `auth` what each request has been given. -/
structure State (ρ : Type) where
  instances : ℕ
  impersonateAddress : ℕ → Option String
  auth : ρ → Option UserAuth
  executions : List (Execution ρ)

/-- What can happen next: a request comes in, one of the two guards of an
execution is called or has its token verified, or both have answered. -/
inductive Action (ρ : Type) where
  | canActivate (request : ρ)
  | jwtCall (i : ℕ)
  | jwtVerified (i : ℕ)
  | nativeCall (i : ℕ)
  | nativeValidated (i : ℕ)
  | respond (i : ℕ)

section Step

variable {ρ : Type} [DecidableEq ρ]

/-- A guard's field is set, whatever becomes of the call. -/
def setField (s : State ρ) (guard : ℕ) (headers : Headers) : State ρ :=
  { s with
    impersonateAddress := Function.update s.impersonateAddress guard headers.impersonateAddress }

/-- The request gets `auth`, with the address the check for impersonation
gives; the guard's answer goes into the execution. -/
def authorize (env : AuthEnv) (s : State ρ) (i : ℕ) (e : Execution ρ) (guard : ℕ)
    (signer : Option String) (auth : UserAuth) (answered : Bool → Execution ρ) : State ρ :=
  match impersonate env (s.impersonateAddress guard) signer auth.address with
  | some address => { s with
      auth := Function.update s.auth e.request (some { auth with address := address })
      executions := s.executions.set i (answered true) }
  | none => { s with
      -- thrown after `req.auth` had been assigned
      auth := Function.update s.auth e.request (some auth)
      executions := s.executions.set i (answered false) }

/-- A segment of a request between two awaits. -/
def step (env : AuthEnv) (headers : ρ → Headers) (s : State ρ) : Action ρ → Option (State ρ)
  | .canActivate request => some { s with
      instances := s.instances + 2
      impersonateAddress := Function.update (Function.update s.impersonateAddress s.instances none)
        (s.instances + 1) none
      executions := s.executions ++
        [⟨request, s.instances, s.instances + 1, .ready, .ready, none⟩] }
  | .jwtCall i => do
    let e ← s.executions[i]?
    let s := setField s e.jwtGuard (headers e.request)
    match e.jwt with
    | .ready => some { s with
        executions := s.executions.set i { e with
          jwt := match token (headers e.request) with
            | some jwt => .verifying jwt
            | none => .done false } }
    | _ => none
  | .jwtVerified i => do
    let e ← s.executions[i]?
    match e.jwt with
    | .verifying jwt =>
      match env.verify jwt with
      | none => some { s with executions := s.executions.set i { e with jwt := .done false } }
      | some decoded => some (authorize env s i e e.jwtGuard decoded.sub
          ⟨decoded.sub, decoded.exp, decoded.iat, decoded.iss⟩
          fun answer => { e with jwt := .done answer })
    | _ => none
  | .nativeCall i => do
    let e ← s.executions[i]?
    let s := setField s e.nativeAuthGuard (headers e.request)
    match e.native with
    | .ready => some { s with
        executions := s.executions.set i { e with
          native := match token (headers e.request) with
            | some jwt => .verifying jwt
            | none => .thrown } }
    | _ => none
  | .nativeValidated i => do
    let e ← s.executions[i]?
    match e.native with
    | .verifying jwt =>
      match env.validate jwt with
      | none => some { s with executions := s.executions.set i { e with native := .done false } }
      | some userInfo => some (authorize env s i e e.nativeAuthGuard (some userInfo.signerAddress)
          ⟨some userInfo.address, userInfo.expires, userInfo.issued, none⟩
          fun answer => { e with native := .done answer })
    | _ => none
  | .respond i => do
    let e ← s.executions[i]?
    match e.jwt, e.native with
    -- `Promise.all` rejects with the first guard that does
    | _, .thrown => some { s with
        executions := s.executions.set i { e with response := some .unauthorized } }
    | .done jwt, .done native => some { s with
        executions := s.executions.set i { e with
          response := some (if jwt || native then .admitted else .denied) } }
    | _, _ => none

/-- Before the first request. -/
def start : State ρ where
  instances := 0
  impersonateAddress := fun _ => none
  auth := fun _ => none
  executions := []

end Step

/-! ## What a request is entitled to -/

/-- The token is valid in one of the schemes. A JWT is signed by the user it
is for. -/
inductive Verifies (env : AuthEnv) (jwt : String) : Option String → Option String → Prop
  | jwt {decoded : JwtPayload} (h : env.verify jwt = some decoded) :
    Verifies env jwt decoded.sub decoded.sub
  | native {userInfo : NativeUserInfo} (h : env.validate jwt = some userInfo) :
    Verifies env jwt (some userInfo.signerAddress) (some userInfo.address)

def isAdministrator (env : AuthEnv) (signer : Option String) : Bool :=
  match env.admins with
  | some admins => isAdmin admins signer
  | none => false

/-- The header's address for an administrator who sends one, the token's
address for anybody else. -/
def ownAddress (env : AuthEnv) (headers : Headers) (signer address : Option String) :
    Option String :=
  match truthy headers.impersonateAddress with
  | some impersonateAddress =>
    if isAdministrator env signer then some impersonateAddress else address
  | none => address

/-- An `auth` that goes back to the request's own headers. -/
def Entitled (env : AuthEnv) (headers : Headers) (auth : UserAuth) : Prop :=
  ∃ jwt signer address, token headers = some jwt ∧ Verifies env jwt signer address ∧
    auth.address = ownAddress env headers signer address

/-! ## The invariant -/

section Invariant

variable {ρ : Type} [DecidableEq ρ] {env : AuthEnv} {headers : ρ → Headers} {s s' : State ρ}
  {i : ℕ} {r : ρ} {e e' : Execution ρ}

/-- An execution has the two instances that bear its number, and their
fields hold the header of its own request from the call on. -/
structure Inv.Own (headers : ρ → Headers) (s : State ρ) (i : ℕ) (e : Execution ρ) : Prop where
  jwtGuard : e.jwtGuard = 2 * i
  nativeAuthGuard : e.nativeAuthGuard = 2 * i + 1
  jwtField : e.jwt ≠ .ready →
    s.impersonateAddress e.jwtGuard = (headers e.request).impersonateAddress
  nativeField : e.native ≠ .ready →
    s.impersonateAddress e.nativeAuthGuard = (headers e.request).impersonateAddress
  jwtToken : ∀ jwt, e.jwt = .verifying jwt → token (headers e.request) = some jwt
  nativeToken : ∀ jwt, e.native = .verifying jwt → token (headers e.request) = some jwt
  answered : e.jwt = .done true ∨ e.native = .done true → s.auth e.request ≠ none
  admitted : e.response = some .admitted → e.jwt = .done true ∨ e.native = .done true

/-- What holds of every state: what a request carries was verified for it. -/
structure Inv (env : AuthEnv) (headers : ρ → Headers) (s : State ρ) : Prop where
  instances : s.instances = 2 * s.executions.length
  entitled : ∀ r auth, s.auth r = some auth → Entitled env (headers r) auth
  own : ∀ i e, s.executions[i]? = some e → Inv.Own headers s i e

omit [DecidableEq ρ] in
/-- Nothing has been requested. -/
theorem inv_start : Inv env headers (start : State ρ) where
  instances := rfl
  entitled := fun _ _ h => absurd h (by simp [start])
  own := fun _ _ h => absurd h (by simp [start])

omit [DecidableEq ρ] in
/-- What happens to other instances and other requests is no matter. -/
theorem Inv.Own.frame (h : Inv.Own headers s i e)
    (hjwt : s'.impersonateAddress e.jwtGuard = s.impersonateAddress e.jwtGuard)
    (hnative : s'.impersonateAddress e.nativeAuthGuard = s.impersonateAddress e.nativeAuthGuard)
    (hauth : s.auth e.request ≠ none → s'.auth e.request ≠ none) : Inv.Own headers s' i e where
  jwtGuard := h.jwtGuard
  nativeAuthGuard := h.nativeAuthGuard
  jwtField := fun hne => hjwt.trans (h.jwtField hne)
  nativeField := fun hne => hnative.trans (h.nativeField hne)
  jwtToken := h.jwtToken
  nativeToken := h.nativeToken
  answered := fun hdone => hauth (h.answered hdone)
  admitted := h.admitted

omit [DecidableEq ρ] in
/-- One execution moves on and touches no fields but its own. -/
theorem Inv.update (hinv : Inv env headers s)
    (hinstances : s'.instances = s.instances)
    (hexecutions : s'.executions = s.executions.set i e')
    (hfields : ∀ guard, guard ≠ 2 * i → guard ≠ 2 * i + 1 →
      s'.impersonateAddress guard = s.impersonateAddress guard)
    (hauth : ∀ r, s.auth r ≠ none → s'.auth r ≠ none)
    (hentitled : ∀ r auth, s'.auth r = some auth → Entitled env (headers r) auth)
    (hown : Inv.Own headers s' i e') : Inv env headers s' where
  instances := by rw [hinstances, hinv.instances, hexecutions, List.length_set]
  entitled := hentitled
  own := by
    intro j e₁ hj
    rw [hexecutions, List.getElem?_set] at hj
    split at hj
    next hij =>
      split at hj
      next =>
        obtain rfl := Option.some.inj hj
        exact hij ▸ hown
      next => exact absurd hj (by simp)
    next hij =>
      have hold := hinv.own j e₁ hj
      refine hold.frame (hfields _ ?_ ?_) (hfields _ ?_ ?_) (hauth _)
      · rw [hold.jwtGuard]
        omega
      · rw [hold.jwtGuard]
        omega
      · rw [hold.nativeAuthGuard]
        omega
      · rw [hold.nativeAuthGuard]
        omega

/-- What `authorize` does, given that the field holds the request's header. -/
theorem authorize_eq (env : AuthEnv) (i : ℕ) {guard : ℕ} (signer : Option String)
    (auth : UserAuth) (answered : Bool → Execution ρ)
    (hfield : s.impersonateAddress guard = (headers e.request).impersonateAddress) :
    ∃ answer, authorize env s i e guard signer auth answered =
      { s with
        auth := Function.update s.auth e.request
          (some { auth with address := ownAddress env (headers e.request) signer auth.address })
        executions := s.executions.set i (answered answer) } := by
  unfold authorize impersonate ownAddress isAdministrator
  rw [hfield]
  cases truthy (headers e.request).impersonateAddress with
  | none => exact ⟨true, rfl⟩
  | some impersonateAddress =>
    cases env.admins with
    | none => exact ⟨false, rfl⟩
    | some admins => exact ⟨true, rfl⟩

omit [DecidableEq ρ] in
/-- The JWT guard answers, after the verification. -/
theorem Inv.Own.jwtDone {jwt : String} {answer : Bool} (h : Inv.Own headers s i e)
    (hphase : e.jwt = .verifying jwt) (hauth : answer = true → s.auth e.request ≠ none) :
    Inv.Own headers s i { e with jwt := .done answer } where
  jwtGuard := h.jwtGuard
  nativeAuthGuard := h.nativeAuthGuard
  jwtField := fun _ => h.jwtField (by simp [hphase])
  nativeField := h.nativeField
  jwtToken := fun _ h' => absurd h' (by simp)
  nativeToken := h.nativeToken
  answered := by
    rintro (hdone | hdone)
    · exact hauth (Phase.done.inj hdone)
    · exact h.answered (Or.inr hdone)
  admitted := fun hresponse => (h.admitted hresponse).imp_left fun hdone =>
    absurd (hphase.symm.trans hdone) (by simp)

omit [DecidableEq ρ] in
/-- The same for the other guard. -/
theorem Inv.Own.nativeDone {jwt : String} {answer : Bool} (h : Inv.Own headers s i e)
    (hphase : e.native = .verifying jwt) (hauth : answer = true → s.auth e.request ≠ none) :
    Inv.Own headers s i { e with native := .done answer } where
  jwtGuard := h.jwtGuard
  nativeAuthGuard := h.nativeAuthGuard
  jwtField := h.jwtField
  nativeField := fun _ => h.nativeField (by simp [hphase])
  jwtToken := h.jwtToken
  nativeToken := fun _ h' => absurd h' (by simp)
  answered := by
    rintro (hdone | hdone)
    · exact h.answered (Or.inl hdone)
    · exact hauth (Phase.done.inj hdone)
  admitted := fun hresponse => (h.admitted hresponse).imp_right fun hdone =>
    absurd (hphase.symm.trans hdone) (by simp)

theorem inv_canActivate (hinv : Inv env headers s)
    (hstep : step env headers s (.canActivate r) = some s') : Inv env headers s' := by
  obtain rfl := Option.some.inj hstep
  constructor
  · show s.instances + 2 = 2 * (s.executions ++ _).length
    rw [hinv.instances, List.length_append, List.length_singleton]
    omega
  · exact hinv.entitled
  · intro i e hi
    rcases Nat.lt_trichotomy i s.executions.length with hlt | heq | hgt
    · -- an execution from before, whose instances are older
      replace hi : s.executions[i]? = some e := by
        rwa [List.getElem?_append_left hlt] at hi
      have hold := hinv.own i e hi
      have hfield : ∀ guard, guard < s.instances →
          Function.update (Function.update s.impersonateAddress s.instances none)
            (s.instances + 1) none guard = s.impersonateAddress guard := by
        intro guard hguard
        rw [Function.update_of_ne (by omega), Function.update_of_ne (by omega)]
      refine hold.frame (hfield _ ?_) (hfield _ ?_) id
      · rw [hold.jwtGuard, hinv.instances]
        omega
      · rw [hold.nativeAuthGuard, hinv.instances]
        omega
    · subst heq
      simp only [List.getElem?_concat_length, Option.some.injEq] at hi
      subst hi
      exact ⟨hinv.instances, congrArg (· + 1) hinv.instances, fun h => absurd rfl h,
        fun h => absurd rfl h, fun _ h => absurd h (by simp), fun _ h => absurd h (by simp),
        fun h => absurd h (by simp), fun h => absurd h (by simp)⟩
    · rw [List.getElem?_eq_none (by simp; omega)] at hi
      exact absurd hi (by simp)

/-- A guard that was called verifies the token of the headers, unless it is
missing. -/
theorem token_of_called {found : Option String} {missing : Phase} {jwt : String}
    (hmissing : missing ≠ .verifying jwt)
    (h : (match found with
      | some jwt => .verifying jwt
      | none => missing) = Phase.verifying jwt) : found = some jwt := by
  cases found with
  | none => exact absurd h hmissing
  | some jwt' => rw [Phase.verifying.inj h]

/-- It has not let the request through yet. -/
theorem called_ne_done (found : Option String) {missing : Phase} (hmissing : missing ≠ .done true) :
    (match found with
      | some jwt => .verifying jwt
      | none => missing) ≠ Phase.done true := by
  cases found with
  | none => exact hmissing
  | some jwt => simp

theorem inv_jwtCall (hinv : Inv env headers s)
    (hstep : step env headers s (.jwtCall i) = some s') : Inv env headers s' := by
  obtain ⟨e, hi, hstep⟩ := Option.bind_eq_some_iff.mp hstep
  dsimp only at hstep
  split at hstep
  next hphase =>
    obtain rfl := Option.some.inj hstep
    have hold := hinv.own i e hi
    have hguards : e.nativeAuthGuard ≠ e.jwtGuard := by
      rw [hold.jwtGuard, hold.nativeAuthGuard]
      omega
    refine hinv.update rfl rfl ?_ (fun _ => id) hinv.entitled ?_
    · intro guard hguard _
      exact Function.update_of_ne (by rwa [hold.jwtGuard]) _ _
    · have hnotDone : e.jwt ≠ .done true := by simp [hphase]
      refine ⟨hold.jwtGuard, hold.nativeAuthGuard, fun _ => Function.update_self .., ?_, ?_,
        hold.nativeToken, ?_, ?_⟩
      · intro hne
        exact (Function.update_of_ne hguards _ _).trans (hold.nativeField hne)
      · exact fun jwt hjwt => token_of_called (by simp) hjwt
      · rintro (hdone | hdone)
        · exact absurd hdone (called_ne_done _ (by simp))
        · exact hold.answered (Or.inr hdone)
      · intro hresponse
        exact Or.inr ((hold.admitted hresponse).resolve_left hnotDone)
  next => exact absurd hstep (by simp)

theorem inv_nativeCall (hinv : Inv env headers s)
    (hstep : step env headers s (.nativeCall i) = some s') : Inv env headers s' := by
  obtain ⟨e, hi, hstep⟩ := Option.bind_eq_some_iff.mp hstep
  dsimp only at hstep
  split at hstep
  next hphase =>
    obtain rfl := Option.some.inj hstep
    have hold := hinv.own i e hi
    -- the two guards of a request are instances of their own
    have hguards : e.jwtGuard ≠ e.nativeAuthGuard := by
      rw [hold.jwtGuard, hold.nativeAuthGuard]
      omega
    refine hinv.update rfl rfl ?_ (fun _ => id) hinv.entitled ?_
    · intro guard _ hguard
      exact Function.update_of_ne (by rwa [hold.nativeAuthGuard]) _ _
    · have hnotDone : e.native ≠ .done true := by simp [hphase]
      refine ⟨hold.jwtGuard, hold.nativeAuthGuard, ?_, fun _ => Function.update_self ..,
        hold.jwtToken, ?_, ?_, ?_⟩
      · intro hne
        exact (Function.update_of_ne hguards _ _).trans (hold.jwtField hne)
      · exact fun jwt hjwt => token_of_called (by simp) hjwt
      · rintro (hdone | hdone)
        · exact hold.answered (Or.inl hdone)
        · exact absurd hdone (called_ne_done _ (by simp))
      · intro hresponse
        exact Or.inl ((hold.admitted hresponse).resolve_right hnotDone)
  next => exact absurd hstep (by simp)

/-- A token is valid, and the request gets what it is entitled to. -/
theorem inv_authorize {guard : ℕ} {signer : Option String} {auth : UserAuth} {jwt : String}
    {answered : Bool → Execution ρ} (hinv : Inv env headers s)
    (hfield : s.impersonateAddress guard = (headers e.request).impersonateAddress)
    (htoken : token (headers e.request) = some jwt)
    (hverifies : Verifies env jwt signer auth.address)
    (hown : ∀ (answer : Bool) (s₁ : State ρ), Inv.Own headers s₁ i e →
      s₁.auth e.request ≠ none → Inv.Own headers s₁ i (answered answer))
    (hi : s.executions[i]? = some e) :
    Inv env headers (authorize env s i e guard signer auth answered) := by
  obtain ⟨answer, heq⟩ := authorize_eq env i signer auth answered hfield
  rw [heq]
  have hkept : ∀ r, s.auth r ≠ none → Function.update s.auth e.request
      (some { auth with address := ownAddress env (headers e.request) signer auth.address }) r ≠
        none := by
    intro r hr
    rw [Function.update_apply]
    split
    next => simp
    next => exact hr
  refine hinv.update rfl rfl (fun _ _ _ => rfl) hkept ?_ ?_
  · intro r auth' hauth'
    dsimp only at hauth'
    rw [Function.update_apply] at hauth'
    split at hauth'
    next hr =>
      subst hr
      rw [← Option.some.inj hauth']
      exact ⟨jwt, signer, auth.address, htoken, hverifies, rfl⟩
    next => exact hinv.entitled r auth' hauth'
  · exact hown answer _ ((hinv.own i e hi).frame rfl rfl (hkept _)) (by simp)

theorem inv_jwtVerified (hinv : Inv env headers s)
    (hstep : step env headers s (.jwtVerified i) = some s') : Inv env headers s' := by
  obtain ⟨e, hi, hstep⟩ := Option.bind_eq_some_iff.mp hstep
  have hold := hinv.own i e hi
  split at hstep
  next jwt hphase =>
    split at hstep
    next =>
      obtain rfl := Option.some.inj hstep
      refine hinv.update rfl rfl (fun _ _ _ => rfl) (fun _ => id) hinv.entitled ?_
      refine Inv.Own.jwtDone (hold.frame rfl rfl id) hphase ?_
      simp
    next decoded hverify =>
      obtain rfl := Option.some.inj hstep
      exact inv_authorize hinv (hold.jwtField (by simp [hphase])) (hold.jwtToken jwt hphase)
        (.jwt hverify) (fun _ _ hown hauth => hown.jwtDone hphase fun _ => hauth) hi
  next => exact absurd hstep (by simp)

theorem inv_nativeValidated (hinv : Inv env headers s)
    (hstep : step env headers s (.nativeValidated i) = some s') : Inv env headers s' := by
  obtain ⟨e, hi, hstep⟩ := Option.bind_eq_some_iff.mp hstep
  have hold := hinv.own i e hi
  split at hstep
  next jwt hphase =>
    split at hstep
    next =>
      obtain rfl := Option.some.inj hstep
      refine hinv.update rfl rfl (fun _ _ _ => rfl) (fun _ => id) hinv.entitled ?_
      refine Inv.Own.nativeDone (hold.frame rfl rfl id) hphase ?_
      simp
    next userInfo hvalidate =>
      obtain rfl := Option.some.inj hstep
      exact inv_authorize hinv (hold.nativeField (by simp [hphase])) (hold.nativeToken jwt hphase)
        (.native hvalidate) (fun _ _ hown hauth => hown.nativeDone hphase fun _ => hauth) hi
  next => exact absurd hstep (by simp)

theorem inv_respond (hinv : Inv env headers s)
    (hstep : step env headers s (.respond i) = some s') : Inv env headers s' := by
  obtain ⟨e, hi, hstep⟩ := Option.bind_eq_some_iff.mp hstep
  have hold := hinv.own i e hi
  -- nothing but the response is set
  have hresponds : ∀ response, (response = .admitted → e.jwt = .done true ∨ e.native = .done true) →
      Inv env headers { s with
        executions := s.executions.set i { e with response := some response } } := by
    intro response hadmitted
    refine hinv.update rfl rfl (fun _ _ _ => rfl) (fun _ => id) hinv.entitled ?_
    exact ⟨hold.jwtGuard, hold.nativeAuthGuard, hold.jwtField, hold.nativeField, hold.jwtToken,
      hold.nativeToken, hold.answered, fun h => hadmitted (Option.some.inj h)⟩
  split at hstep
  next =>
    obtain rfl := Option.some.inj hstep
    exact hresponds _ (fun h => absurd h (by simp))
  next jwt native hjwt hnative =>
    obtain rfl := Option.some.inj hstep
    refine hresponds _ ?_
    intro hadmitted
    cases jwt with
    | true => exact Or.inl hjwt
    | false =>
      cases native with
      | true => exact Or.inr hnative
      | false => exact absurd hadmitted (by simp)
  next => exact absurd hstep (by simp)

/-- Every segment keeps the invariant. -/
theorem inv_step {a : Action ρ} (hinv : Inv env headers s) (h : step env headers s a = some s') :
    Inv env headers s' := by
  cases a with
  | canActivate => exact inv_canActivate hinv h
  | jwtCall => exact inv_jwtCall hinv h
  | jwtVerified => exact inv_jwtVerified hinv h
  | nativeCall => exact inv_nativeCall hinv h
  | nativeValidated => exact inv_nativeValidated hinv h
  | respond => exact inv_respond hinv h

end Invariant

/-- In every run, a request that is let in has a valid token, and its
address is its own header's if it has one and its signer is an
administrator, and its token's otherwise. -/
theorem admitted_own_address {ρ : Type} [DecidableEq ρ] (env : AuthEnv) (headers : ρ → Headers)
    (actions : List (Action ρ)) (s : State ρ)
    (hrun : run (step env headers) start actions = some s) (i : ℕ) (e : Execution ρ)
    (he : s.executions[i]? = some e) (hadmitted : e.response = some .admitted) :
    ∃ jwt signer address auth, token (headers e.request) = some jwt ∧
      Verifies env jwt signer address ∧ s.auth e.request = some auth ∧
      auth.address = ownAddress env (headers e.request) signer address := by
  have hinv : Inv env headers s :=
    run_invariant_all (Inv env headers) (fun _ _ _ => inv_step) inv_start hrun
  have hown := hinv.own i e he
  obtain ⟨auth, hauth⟩ := Option.ne_none_iff_exists'.mp (hown.answered (hown.admitted hadmitted))
  obtain ⟨jwt, signer, address, htoken, hverifies, haddress⟩ := hinv.entitled e.request auth hauth
  exact ⟨jwt, signer, address, auth, htoken, hverifies, hauth, haddress⟩

/-! ## An administrator and a user at the same time -/

def sampleEnv : AuthEnv where
  verify jwt := if jwt = "admin" then some ⟨some "erd1admin", 2, 1, none⟩ else none
  validate jwt := if jwt = "user" then some ⟨"erd1user", "erd1user", 2, 1, "https://x"⟩ else none
  admins := some ["erd1admin"]

/-- Both send a header; the first is the administrator's. -/
def sampleHeaders (isAdmin : Bool) : Headers :=
  if isAdmin then ⟨some "Bearer admin", some "erd1other"⟩
  else ⟨some "Bearer user", some "erd1other"⟩

def sampleActions : List (Action Bool) :=
  [.canActivate true, .canActivate false, .jwtCall 1, .jwtCall 0, .nativeCall 0, .jwtVerified 1,
    .nativeCall 1, .jwtVerified 0, .nativeValidated 1, .nativeValidated 0, .respond 0, .respond 1]

def sampleEnd : State Bool := (run (step sampleEnv sampleHeaders) start sampleActions).getD start

theorem admitted_own_address_sample :
    (∃ jwt signer address auth, token (sampleHeaders true) = some jwt ∧
      Verifies sampleEnv jwt signer address ∧ sampleEnd.auth true = some auth ∧
      auth.address = ownAddress sampleEnv (sampleHeaders true) signer address) ∧
    ∃ jwt signer address auth, token (sampleHeaders false) = some jwt ∧
      Verifies sampleEnv jwt signer address ∧ sampleEnd.auth false = some auth ∧
      auth.address = ownAddress sampleEnv (sampleHeaders false) signer address :=
  ⟨admitted_own_address sampleEnv sampleHeaders sampleActions sampleEnd rfl 0
      ⟨true, 0, 1, .done true, .done false, some .admitted⟩ rfl rfl,
    admitted_own_address sampleEnv sampleHeaders sampleActions sampleEnd rfl 1
      ⟨false, 2, 3, .done false, .done true, some .admitted⟩ rfl rfl⟩

end MxExchange.Auth
