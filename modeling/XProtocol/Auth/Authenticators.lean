import Mathlib.Algebra.Group.Nat.Defs
import XProtocol.Auth.Permission

/-! The authenticators.

A store of tokens or keys answers by the last operation that touched the one it is shown
(`Latest`): a token is good from the `add_token` that put it there until its ttl is over, a
later `add_token` replaces it or `remove_token` takes it away. A composite asks its
authenticators in turn, and answers as the first that accepts, or as the last if none does
(`composite_exact`). But a ttl may be too long for an instant to be that far away: then
`add_token` panics, and nothing is added (`endless_token`). -/
namespace XProtocol

/-- `op` is the last of `ops` that touches something, and `before` are the ones before it. -/
def Latest {Op : Type} (touches : Op → Bool) (ops before : List Op) (op : Op) : Prop :=
  touches op = true ∧ ∃ since, ops = before ++ op :: since ∧ ∀ x ∈ since, touches x = false

/-- What is latest after one operation more. -/
theorem latest_snoc {Op : Type} {touches : Op → Bool} {ops before : List Op} {x op : Op} :
    Latest touches (ops ++ [x]) before op ↔
      if touches x then before = ops ∧ op = x else Latest touches ops before op := by
  constructor
  · rintro ⟨htouches, since, heq, hsince⟩
    rcases List.eq_nil_or_concat since with rfl | ⟨since, y, rfl⟩
    · obtain ⟨rfl, hx⟩ := List.append_inj' heq rfl
      cases hx
      rw [if_pos htouches]
      exact ⟨rfl, rfl⟩
    · rw [List.concat_eq_append, ← List.cons_append, ← List.append_assoc] at heq
      obtain ⟨rfl, hx⟩ := List.append_inj' heq rfl
      cases hx
      rw [List.concat_eq_append] at hsince
      rw [if_neg (by simp [hsince x (by simp)])]
      exact ⟨htouches, since, rfl, fun y hy => hsince y (by simp [hy])⟩
  · split
    · next htouches =>
      rintro ⟨rfl, rfl⟩
      exact ⟨htouches, [], rfl, nofun⟩
    · next hnot =>
      rintro ⟨htouches, since, rfl, hsince⟩
      refine ⟨htouches, since ++ [x], by simp, fun y hy => ?_⟩
      rcases List.mem_append.mp hy with hy | hy
      · exact hsince y hy
      · rw [List.mem_singleton.mp hy]
        exact Bool.eq_false_iff.mpr hnot

theorem not_latest_nil {Op : Type} {touches : Op → Bool} {before : List Op} {op : Op} :
    ¬ Latest touches [] before op := by
  rintro ⟨-, since, heq, -⟩
  simp at heq

/-! ### Tokens -/

structure TokenAuthenticator where
  tokens : String → Option AuthContext
  tokenTtl : Nat

namespace TokenAuthenticator

/-- `Duration::from_secs(3600)`, in nanoseconds. -/
def defaultTtl : Nat := 3600 * 10 ^ 9

def new : TokenAuthenticator := { tokens := fun _ => none, tokenTtl := defaultTtl }

def withTtl (a : TokenAuthenticator) (ttl : Nat) : TokenAuthenticator := { a with tokenTtl := ttl }

/-- The seconds of an `Instant` are an `i64`; this is the first instant beyond, in nanoseconds. -/
def instantLimit : Nat := 2 ^ 63 * 10 ^ 9

/-- `Instant::now() + self.token_ttl`: nothing if that panics. -/
def expiry (a : TokenAuthenticator) (now : Nat) : Option Nat :=
  if now + a.tokenTtl < instantLimit then some (now + a.tokenTtl) else none

/-- Nothing if it panics. -/
def addToken (a : TokenAuthenticator) (now : Nat) (token clientId : String) (permissions : List Permission) :
    Option TokenAuthenticator :=
  (a.expiry now).map fun expires =>
    let ctx := { clientId, permissions, expiresAt := some expires }
    { a with tokens := Function.update a.tokens token (some ctx) }

def removeToken (a : TokenAuthenticator) (token : String) : TokenAuthenticator :=
  { a with tokens := Function.update a.tokens token none }

def authenticate (a : TokenAuthenticator) (now : Nat) : Authenticator := fun credentials =>
  match credentials.token with
  | none => .error (.protocol "missing authentication token")
  | some token =>
    match a.tokens token with
    | none => .error (.protocol "invalid token")
    | some ctx => if !ctx.isValid now then .error (.protocol "token expired") else .ok ctx

inductive Op where
  | withTtl (ttl : Nat)
  | addToken (now : Nat) (token clientId : String) (permissions : List Permission)
  | removeToken (token : String)

def perform (a : TokenAuthenticator) : Op → TokenAuthenticator
  | .withTtl ttl => a.withTtl ttl
  -- a panic comes before the insertion, and unwinding gives the lock back
  | .addToken now token clientId permissions => (a.addToken now token clientId permissions).getD a
  | .removeToken token => a.removeToken token

def after (ops : List Op) : TokenAuthenticator := ops.foldl perform new

def Op.touches (token : String) : Op → Bool
  | .withTtl _ => false
  | .addToken _ t _ _ => t = token
  | .removeToken t => t = token

def Op.ttl? : Op → Option Nat
  | .withTtl ttl => some ttl
  | _ => none

/-- The ttl in force after `ops`. -/
def ttlOf (ops : List Op) : Nat := (ops.filterMap Op.ttl?).getLastD defaultTtl

/-- Every `add_token` is at an instant from which the ttl in force leads to another. -/
def Timely (ops : List Op) : Prop :=
  ∀ before now token clientId permissions, before ++ [.addToken now token clientId permissions] <+: ops →
    now + ttlOf before < instantLimit

theorem Timely.init {ops : List Op} {op : Op} (h : Timely (ops ++ [op])) : Timely ops :=
  fun before now token clientId permissions hbefore =>
    h before now token clientId permissions (hbefore.trans (List.prefix_append ops [op]))

theorem after_snoc (ops : List Op) (op : Op) : after (ops ++ [op]) = (after ops).perform op := by
  simp [after]

theorem after_ttl (ops : List Op) : (after ops).tokenTtl = ttlOf ops := by
  induction ops using List.reverseRecOn with
  | nil => rfl
  | append_singleton ops op ih =>
    rw [after_snoc]
    cases op with
    | withTtl ttl => simp [perform, withTtl, ttlOf, Op.ttl?]
    | addToken now token clientId permissions =>
      rw [perform, addToken]
      cases (after ops).expiry now <;> simpa [ttlOf, Op.ttl?] using ih
    | removeToken token => simpa [perform, removeToken, ttlOf, Op.ttl?] using ih

theorem perform_addToken {ops : List Op} {now : Nat} {token clientId : String} {permissions : List Permission}
    (h : Timely (ops ++ [.addToken now token clientId permissions])) :
    ((after ops).perform (.addToken now token clientId permissions)).tokens =
      Function.update (after ops).tokens token (some ⟨clientId, permissions, some (now + ttlOf ops)⟩) := by
  have hexpiry : (after ops).expiry now = some (now + ttlOf ops) := by
    rw [expiry, after_ttl, if_pos (h ops now token clientId permissions (List.prefix_refl _))]
  simp only [perform, addToken, hexpiry, Option.map_some, Option.getD_some]

/-- The store has what the latest operation on a token left. -/
theorem after_tokens {ops : List Op} (h : Timely ops) (token : String) (ctx : AuthContext) :
    (after ops).tokens token = some ctx ↔
      ∃ before s, Latest (Op.touches token) ops before (.addToken s token ctx.clientId ctx.permissions) ∧
        ctx.expiresAt = some (s + ttlOf before) := by
  induction ops using List.reverseRecOn with
  | nil => exact iff_of_false nofun fun ⟨_, _, h, _⟩ => not_latest_nil h
  | append_singleton ops op ih =>
    have ih := ih h.init
    rw [after_snoc]
    simp only [latest_snoc]
    cases op with
    | withTtl ttl => exact ih
    | addToken now t clientId permissions =>
      rw [perform_addToken h]
      by_cases ht : t = token
      · subst ht
        simp only [Function.update_self, Op.touches, decide_true, if_true]
        constructor
        · rintro ⟨rfl⟩
          exact ⟨ops, now, ⟨rfl, rfl⟩, rfl⟩
        · rintro ⟨before, s, ⟨rfl, hop⟩, hexpires⟩
          cases hop
          rw [← hexpires]
      · simp only [Function.update_of_ne (Ne.symm ht), Op.touches, ht, decide_false, Bool.false_eq_true, if_false]
        exact ih
    | removeToken t =>
      by_cases ht : t = token
      · subst ht
        simp only [perform, removeToken, Function.update_self, Op.touches, decide_true, if_true]
        exact iff_of_false nofun fun ⟨_, _, ⟨_, hop⟩, _⟩ => nomatch hop
      · simp only [perform, removeToken, Function.update_of_ne (Ne.symm ht), Op.touches, ht, decide_false,
          Bool.false_eq_true, if_false]
        exact ih

/-- The token was last added at `s`, with this client and these permissions, and its ttl is not over. -/
def Grants (ops : List Op) (now : Nat) (credentials : Credentials) (ctx : AuthContext) : Prop :=
  ∃ token before s, credentials.token = some token ∧
    Latest (Op.touches token) ops before (.addToken s token ctx.clientId ctx.permissions) ∧
    now < s + ttlOf before ∧ ctx.expiresAt = some (s + ttlOf before)

theorem authenticate_iff {ops : List Op} (h : Timely ops) (now : Nat) (credentials : Credentials)
    (ctx : AuthContext) : (after ops).authenticate now credentials = .ok ctx ↔ Grants ops now credentials ctx := by
  have hok : (after ops).authenticate now credentials = .ok ctx ↔
      ∃ token, credentials.token = some token ∧ (after ops).tokens token = some ctx ∧ ctx.isValid now = true := by
    unfold authenticate
    cases credentials.token with
    | none => simp
    | some token =>
      simp only [Option.some.injEq, exists_eq_left']
      cases (after ops).tokens token with
      | none => simp
      | some found =>
        cases hvalid : found.isValid now with
        | true =>
          simp only [hvalid, Bool.not_true, Bool.false_eq_true, if_false, Except.ok.injEq, Option.some.injEq]
          exact ⟨fun h => ⟨h, h ▸ hvalid⟩, And.left⟩
        | false =>
          simp only [hvalid, Bool.not_false, if_true, reduceCtorEq, Option.some.injEq, false_iff, not_and]
          rintro rfl h
          exact Bool.false_ne_true (hvalid.symm.trans h)
  rw [hok]
  constructor
  · rintro ⟨token, htoken, hfound, hvalid⟩
    obtain ⟨before, s, hlatest, hexpires⟩ := (after_tokens h token ctx).mp hfound
    refine ⟨token, before, s, htoken, hlatest, ?_, hexpires⟩
    simpa [AuthContext.isValid, hexpires] using hvalid
  · rintro ⟨token, before, s, htoken, hlatest, hnow, hexpires⟩
    refine ⟨token, htoken, (after_tokens h token ctx).mpr ⟨before, s, hlatest, hexpires⟩, ?_⟩
    simpa [AuthContext.isValid, hexpires] using hnow

end TokenAuthenticator

/-! ### API keys -/

structure ApiKeyAuthenticator where
  keys : String → Option (String × List Permission)

namespace ApiKeyAuthenticator

def new : ApiKeyAuthenticator := { keys := fun _ => none }

def addKey (a : ApiKeyAuthenticator) (apiKey clientId : String) (permissions : List Permission) :
    ApiKeyAuthenticator := { keys := Function.update a.keys apiKey (some (clientId, permissions)) }

def authenticate (a : ApiKeyAuthenticator) : Authenticator := fun credentials =>
  match credentials.apiKey with
  | none => .error (.protocol "missing API key")
  | some apiKey =>
    match a.keys apiKey with
    | none => .error (.protocol "invalid API key")
    | some (clientId, permissions) => .ok { clientId, permissions, expiresAt := none }

/-- A call of `add_key`. -/
structure Op where
  apiKey : String
  clientId : String
  permissions : List Permission

def after (ops : List Op) : ApiKeyAuthenticator :=
  ops.foldl (fun a op => a.addKey op.apiKey op.clientId op.permissions) new

def Op.touches (apiKey : String) (op : Op) : Bool := op.apiKey = apiKey

theorem after_keys (ops : List Op) (apiKey clientId : String) (permissions : List Permission) :
    (after ops).keys apiKey = some (clientId, permissions) ↔
      ∃ before, Latest (Op.touches apiKey) ops before ⟨apiKey, clientId, permissions⟩ := by
  induction ops using List.reverseRecOn with
  | nil => exact iff_of_false nofun fun ⟨_, h⟩ => not_latest_nil h
  | append_singleton ops op ih =>
    have hsnoc : after (ops ++ [op]) = (after ops).addKey op.apiKey op.clientId op.permissions := by simp [after]
    rw [hsnoc]
    simp only [latest_snoc, Op.touches]
    by_cases hkey : op.apiKey = apiKey
    · subst hkey
      simp only [addKey, Function.update_self, decide_true, if_true, Option.some.injEq, Prod.mk.injEq]
      constructor
      · rintro ⟨rfl, rfl⟩
        exact ⟨ops, rfl, rfl⟩
      · rintro ⟨before, rfl, hop⟩
        exact ⟨congrArg Op.clientId hop.symm, congrArg Op.permissions hop.symm⟩
    · simp only [addKey, Function.update_of_ne (Ne.symm hkey), hkey, decide_false, Bool.false_eq_true, if_false]
      exact ih

/-- The key was last added with this client and these permissions. -/
def Grants (ops : List Op) (credentials : Credentials) (ctx : AuthContext) : Prop :=
  ∃ apiKey before, credentials.apiKey = some apiKey ∧
    Latest (Op.touches apiKey) ops before ⟨apiKey, ctx.clientId, ctx.permissions⟩ ∧ ctx.expiresAt = none

theorem authenticate_iff (ops : List Op) (credentials : Credentials) (ctx : AuthContext) :
    (after ops).authenticate credentials = .ok ctx ↔ Grants ops credentials ctx := by
  have hok : (after ops).authenticate credentials = .ok ctx ↔ ∃ apiKey, credentials.apiKey = some apiKey ∧
      (after ops).keys apiKey = some (ctx.clientId, ctx.permissions) ∧ ctx.expiresAt = none := by
    unfold authenticate
    cases credentials.apiKey with
    | none => simp
    | some apiKey =>
      simp only [Option.some.injEq, exists_eq_left']
      obtain ⟨clientId, permissions, expiresAt⟩ := ctx
      cases (after ops).keys apiKey with
      | none => simp
      | some found => simp [Prod.ext_iff, and_assoc, eq_comm]
  rw [hok]
  simp only [after_keys, Grants, exists_and_left, exists_and_right]

end ApiKeyAuthenticator

/-! ### Composites -/

structure CompositeAuthenticator where
  authenticators : List Authenticator

namespace CompositeAuthenticator

def new : CompositeAuthenticator := { authenticators := [] }

def add (c : CompositeAuthenticator) (authenticator : Authenticator) : CompositeAuthenticator :=
  { authenticators := c.authenticators ++ [authenticator] }

/-- The loop, with the last error before it. -/
def firstOf (credentials : Credentials) : (lastError : Option ProtocolError) → List Authenticator →
    Result AuthContext
  | lastError, [] => .error (lastError.getD (.protocol "authentication failed"))
  | _, authenticator :: rest =>
    match authenticator credentials with
    | .ok ctx => .ok ctx
    | .error e => firstOf credentials (some e) rest

def authenticate (c : CompositeAuthenticator) : Authenticator := fun credentials =>
  firstOf credentials none c.authenticators

/-- An authenticator of either kind: what was done with it, and when a token is checked. -/
inductive Member where
  | token (ops : List TokenAuthenticator.Op) (now : Nat)
  | apiKey (ops : List ApiKeyAuthenticator.Op)

def Member.authenticator : Member → Authenticator
  | .token ops now => (TokenAuthenticator.after ops).authenticate now
  | .apiKey ops => (ApiKeyAuthenticator.after ops).authenticate

/-- What the member's store says of the credentials. -/
def Member.Grants (credentials : Credentials) : Member → AuthContext → Prop
  | .token ops now, ctx => TokenAuthenticator.Grants ops now credentials ctx
  | .apiKey ops, ctx => ApiKeyAuthenticator.Grants ops credentials ctx

def build (members : List Member) : CompositeAuthenticator :=
  members.foldl (fun c m => c.add m.authenticator) new

theorem build_authenticators (members : List Member) :
    (build members).authenticators = members.map Member.authenticator := by
  induction members using List.reverseRecOn with
  | nil => rfl
  | append_singleton members m ih => simp [build, add] at ih ⊢; exact ih

/-- No token of the member's was too long-lived to be added. -/
def Member.Timely : Member → Prop
  | .token ops _ => TokenAuthenticator.Timely ops
  | .apiKey _ => True

theorem Member.authenticator_iff {m : Member} (h : m.Timely) (credentials : Credentials) (ctx : AuthContext) :
    m.authenticator credentials = .ok ctx ↔ m.Grants credentials ctx := by
  cases m with
  | token ops now => exact TokenAuthenticator.authenticate_iff h now credentials ctx
  | apiKey ops => exact ApiKeyAuthenticator.authenticate_iff ops credentials ctx

theorem firstOf_ok (credentials : Credentials) (lastError : Option ProtocolError)
    (authenticators : List Authenticator)
    (ctx : AuthContext) : firstOf credentials lastError authenticators = .ok ctx ↔
      ∃ before a since, authenticators = before ++ a :: since ∧
        (∀ x ∈ before, ∀ ctx', x credentials ≠ .ok ctx') ∧ a credentials = .ok ctx := by
  induction authenticators generalizing lastError with
  | nil => simp [firstOf]
  | cons a rest ih =>
    rw [firstOf]
    cases ha : a credentials with
    | ok ctx' =>
      constructor
      · rintro ⟨rfl⟩
        exact ⟨[], a, rest, rfl, nofun, ha⟩
      · rintro ⟨before, b, since, heq, hbefore, hb⟩
        cases before with
        | nil =>
          cases heq
          exact ha.symm.trans hb
        | cons c before =>
          cases heq
          exact absurd ha (hbefore a (List.mem_cons_self ..) ctx')
    | error e =>
      rw [ih]
      constructor
      · rintro ⟨before, b, since, rfl, hbefore, hb⟩
        refine ⟨a :: before, b, since, rfl, ?_, hb⟩
        rintro x hx ctx'
        rcases List.mem_cons.mp hx with rfl | hx
        · rw [ha]
          exact nofun
        · exact hbefore x hx ctx'
      · rintro ⟨before, b, since, heq, hbefore, hb⟩
        cases before with
        | nil =>
          cases heq
          exact nomatch ha.symm.trans hb
        | cons c before =>
          cases heq
          exact ⟨before, b, since, rfl, fun x hx => hbefore x (List.mem_cons_of_mem _ hx), hb⟩

theorem firstOf_error (credentials : Credentials) (lastError : Option ProtocolError)
    (authenticators : List Authenticator) (e : ProtocolError) :
    firstOf credentials lastError authenticators = .error e ↔
      (∀ x ∈ authenticators, ∀ ctx, x credentials ≠ .ok ctx) ∧
        match authenticators.getLast? with
        | some a => a credentials = .error e
        | none => e = lastError.getD (.protocol "authentication failed") := by
  induction authenticators generalizing lastError with
  | nil => simp [firstOf, eq_comm]
  | cons a rest ih =>
    rw [firstOf, List.forall_mem_cons, List.getLast?_cons]
    cases ha : a credentials with
    | ok ctx => simp
    | error e' =>
      simp only [ih, ne_eq, reduceCtorEq, not_false_eq_true, implies_true, true_and]
      cases hlast : rest.getLast? with
      | none => simp [ha, eq_comm]
      | some b => simp

/-- The credentials' token is worth nothing here: it was taken away, or its ttl is over. -/
def Member.Lapsed (token : String) : Member → Prop
  | .token ops now => ∀ before op, Latest (TokenAuthenticator.Op.touches token) ops before op →
    op = .removeToken token ∨
      ∃ s clientId permissions, op = .addToken s token clientId permissions ∧
        s + TokenAuthenticator.ttlOf before ≤ now
  | .apiKey _ => True

theorem Member.not_grants {m : Member} {credentials : Credentials} {token : String}
    (htoken : credentials.token = some token) (hkey : credentials.apiKey = none) (hlapsed : m.Lapsed token)
    (ctx : AuthContext) : ¬ m.Grants credentials ctx := by
  cases m with
  | token ops now =>
    rintro ⟨token', before, s, htoken', hlatest, hnow, -⟩
    cases htoken.symm.trans htoken'
    obtain hremoved | ⟨s', clientId, permissions, hadded, hover⟩ := hlapsed before _ hlatest
    · cases hremoved
    · cases hadded
      omega
  | apiKey ops =>
    rintro ⟨apiKey, before, hkey', -⟩
    rw [hkey] at hkey'
    cases hkey'

/-- The composite answers by what the stores of its members say now. -/
structure Exact (members : List Member) (credentials : Credentials) : Prop where
  /-- As the first member that accepts. -/
  accepts : ∀ ctx, (build members).authenticate credentials = .ok ctx ↔
    ∃ before m since, members = before ++ m :: since ∧
      (∀ x ∈ before, ∀ ctx', ¬ x.Grants credentials ctx') ∧ m.Grants credentials ctx
  /-- If none does, with the error of the last. -/
  refuses : ∀ e, (build members).authenticate credentials = .error e ↔
    (∀ m ∈ members, ∀ ctx, ¬ m.Grants credentials ctx) ∧
      match members.getLast? with
      | some m => m.authenticator credentials = .error e
      | none => e = .protocol "authentication failed"
  /-- A token that was removed or has expired opens no access. -/
  lapsed : ∀ token, credentials.token = some token → credentials.apiKey = none → (∀ m ∈ members, m.Lapsed token) →
    ∃ e, (build members).authenticate credentials = .error e

/-- **A composite answers by what the stores of its members say now**, if every token could be added with its
ttl. -/
theorem composite_exact (members : List Member) (htimely : ∀ m ∈ members, m.Timely) (credentials : Credentials) :
    Exact members credentials := by
  have hiff (m : Member) (hm : m ∈ members) := Member.authenticator_iff (htimely m hm) credentials
  have hok (ctx : AuthContext) : (build members).authenticate credentials = .ok ctx ↔
      ∃ before m since, members = before ++ m :: since ∧
        (∀ x ∈ before, ∀ ctx', ¬ x.Grants credentials ctx') ∧ m.Grants credentials ctx := by
    rw [authenticate, build_authenticators, firstOf_ok]
    constructor
    · rintro ⟨before, a, since, heq, hbefore, ha⟩
      obtain ⟨before, rest, rfl, rfl, hrest⟩ := List.map_eq_append_iff.mp heq
      obtain ⟨m, since, rfl, rfl, rfl⟩ := List.map_eq_cons_iff.mp hrest
      refine ⟨before, m, since, rfl, fun x hx ctx' hgrants => ?_, (hiff m (by simp) ctx).mp ha⟩
      exact hbefore _ (List.mem_map_of_mem hx) ctx' ((hiff x (by simp [hx]) ctx').mpr hgrants)
    · rintro ⟨before, m, since, rfl, hbefore, hm⟩
      refine ⟨before.map Member.authenticator, m.authenticator, since.map Member.authenticator, by simp, ?_,
        (hiff m (by simp) ctx).mpr hm⟩
      intro a ha ctx' haccepts
      obtain ⟨x, hx, rfl⟩ := List.mem_map.mp ha
      exact hbefore x hx ctx' ((hiff x (by simp [hx]) ctx').mp haccepts)
  refine ⟨hok, fun e => ?_, fun token htoken hkey hlapsed => ?_⟩
  · rw [authenticate, build_authenticators, firstOf_error, List.forall_mem_map, List.getLast?_map]
    refine and_congr (forall₂_congr fun m hm => forall_congr' fun ctx => not_congr (hiff m hm ctx)) ?_
    cases members.getLast? <;> rfl
  · cases hanswer : (build members).authenticate credentials with
    | error e => exact ⟨e, rfl⟩
    | ok ctx =>
      obtain ⟨before, m, since, rfl, -, hgrants⟩ := (hok ctx).mp hanswer
      exact absurd hgrants (m.not_grants htoken hkey (hlapsed m (by simp)) ctx)

/-! ### A token for an hour, and one for ever -/

def bearer : Credentials := { clientId := "client", token := some "t", apiKey := none }

def hourly : Member := .token [.addToken 5 "t" "client" []] 60

/-- With `Duration::MAX`. -/
def endless : Member := .token [.withTtl (2 ^ 64 * 10 ^ 9 - 1), .addToken 5 "t" "client" []] 60

theorem hourly_timely : hourly.Timely := by
  intro before now token clientId permissions hbefore
  obtain ⟨since, heq⟩ := hbefore
  cases before with
  | nil =>
    cases heq
    decide
  | cons op before => simp at heq

/-- The hour is not over. -/
theorem composite_exact_hourly : ∃ ctx, (build [hourly]).authenticate bearer = .ok ctx :=
  ⟨⟨"client", [], some (5 + 3600 * 10 ^ 9)⟩, ((composite_exact [hourly]
    (List.forall_mem_singleton.mpr hourly_timely) bearer).accepts _).mpr ⟨[], hourly, [], rfl, nofun,
      "t", [], 5, rfl, ⟨by decide, [], rfl, nofun⟩, by decide, rfl⟩⟩

/-- The token was added, its ttl is not over, and it is not there. -/
theorem endless_token : ¬ Exact [endless] bearer := by
  intro h
  have hgrants : endless.Grants bearer ⟨"client", [], some (5 + (2 ^ 64 * 10 ^ 9 - 1))⟩ :=
    ⟨"t", [.withTtl (2 ^ 64 * 10 ^ 9 - 1)], 5, rfl, ⟨by decide, [], rfl, nofun⟩, by decide, rfl⟩
  have hok := (h.accepts _).mpr ⟨[], endless, [], rfl, nofun, hgrants⟩
  have herror : (build [endless]).authenticate bearer = .error (.protocol "invalid token") := rfl
  exact nomatch herror.symm.trans hok

end CompositeAuthenticator

end XProtocol
