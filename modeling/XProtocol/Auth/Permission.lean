import Mathlib.Data.List.Induction
import Mathlib.Logic.Function.Basic
import XProtocol.Error

/-! Permissions and the authorization middleware.

A permission is a pair: a service and a method, `*` standing for any. What one
permission grants is a statement about the pair (`Permission.Grants`).
`hasPermission` looks for the service and for the method in two separate scans,
so a list can say yes to a pair that none of its entries grants; it does so on
exactly the lists that are `Mixed` for the request. `AuthMiddleware.check` asks
whether the pair is among those *required*, and never what the client holds. -/
namespace XProtocol

structure Permission where
  service : String
  method : String
  deriving DecidableEq

def Permission.all : Permission := { service := "*", method := "*" }

structure AuthContext where
  clientId : String
  permissions : List Permission
  expiresAt : Option Nat

def AuthContext.isValid (ctx : AuthContext) (now : Nat) : Bool :=
  match ctx.expiresAt with
  | some expires => now < expires
  | none => true

def AuthContext.hasPermission (ctx : AuthContext) (permission : Permission) : Bool :=
  ctx.permissions.any (fun p => p.service == "*" || p.service == permission.service) &&
    ctx.permissions.any fun p =>
      match p.method, permission.method with
      | "*", _ => true
      | _, "*" => true
      | a, b => a == b

/-! ### What a permission grants -/

namespace Permission

def CoversService (q p : Permission) : Prop := q.service = "*" ∨ q.service = p.service

def CoversMethod (q p : Permission) : Prop := q.method = "*" ∨ p.method = "*" ∨ q.method = p.method

/-- `q` alone grants `p`. -/
def Grants (q p : Permission) : Prop := q.CoversService p ∧ q.CoversMethod p

instance (q p : Permission) : Decidable (q.CoversService p) := inferInstanceAs (Decidable (_ ∨ _))
instance (q p : Permission) : Decidable (q.CoversMethod p) := inferInstanceAs (Decidable (_ ∨ _))
instance (q p : Permission) : Decidable (q.Grants p) := inferInstanceAs (Decidable (_ ∧ _))

theorem all_grants (p : Permission) : all.Grants p := ⟨.inl rfl, .inl rfl⟩

/-- The list reaches `p` only by putting two entries together: one covers its
service, another its method, and none covers both. -/
structure Mixed (permissions : List Permission) (p : Permission) : Prop where
  service : ∃ q ∈ permissions, q.CoversService p
  method : ∃ q ∈ permissions, q.CoversMethod p
  apart : ∀ q ∈ permissions, q.CoversService p → ¬ q.CoversMethod p

end Permission

namespace AuthContext
variable (ctx : AuthContext) (p : Permission)

theorem methodTest_iff (q : Permission) :
    (match q.method, p.method with
      | "*", _ => true
      | _, "*" => true
      | a, b => a == b) = true ↔ q.CoversMethod p := by
  unfold Permission.CoversMethod
  split
  · next h => simp [h]
  · next h _ => simp [h]
  · next hq hp =>
    have hq' : q.method ≠ "*" := hq
    have hp' : p.method ≠ "*" := hp
    simp [hq', hp']

/-- The two scans of `hasPermission`. -/
theorem hasPermission_iff : ctx.hasPermission p = true ↔
    (∃ q ∈ ctx.permissions, q.CoversService p) ∧ ∃ q ∈ ctx.permissions, q.CoversMethod p := by
  have hservice (q : Permission) :
      (q.service == "*" || q.service == p.service) = true ↔ q.CoversService p := by
    simp [Permission.CoversService]
  simp only [hasPermission, Bool.and_eq_true, List.any_eq_true, hservice, methodTest_iff]

/-- What one entry grants is never refused. -/
theorem hasPermission_of_grants {q : Permission} (hq : q ∈ ctx.permissions) (h : q.Grants p) :
    ctx.hasPermission p = true :=
  (ctx.hasPermission_iff p).mpr ⟨⟨q, hq, h.1⟩, ⟨q, hq, h.2⟩⟩

/-- **`hasPermission` grants what some single entry grants exactly when the list
does not mix two entries into the answer.** -/
theorem hasPermission_exact :
    (ctx.hasPermission p = true ↔ ∃ q ∈ ctx.permissions, q.Grants p) ↔
      ¬ Permission.Mixed ctx.permissions p := by
  constructor
  · intro hexact hmixed
    obtain ⟨q, hq, hgrants⟩ := hexact.mp ((ctx.hasPermission_iff p).mpr ⟨hmixed.service, hmixed.method⟩)
    exact hmixed.apart q hq hgrants.1 hgrants.2
  · intro hnot
    refine ⟨fun h => ?_, fun ⟨q, hq, hgrants⟩ => ctx.hasPermission_of_grants p hq hgrants⟩
    obtain ⟨hservice, hmethod⟩ := (ctx.hasPermission_iff p).mp h
    by_contra hnone
    exact hnot ⟨hservice, hmethod, fun q hq hs hm => hnone ⟨q, hq, hs, hm⟩⟩

/-- The service of one entry and the method of another are taken for a grant. -/
theorem hasPermission_mixes_entries :
    ¬ ∀ (ctx : AuthContext) (p : Permission),
      ctx.hasPermission p = true ↔ ∃ q ∈ ctx.permissions, q.Grants p := by
  intro h
  have hbad := h ⟨"client", [⟨"billing", "read"⟩, ⟨"audit", "write"⟩], none⟩ ⟨"billing", "write"⟩
  revert hbad
  decide

end AuthContext

/-! ### The middleware -/

structure Credentials where
  clientId : String
  token : Option String
  apiKey : Option String

/-- `dyn Authenticator`: what it answers for credentials at the time it is asked. -/
abbrev Authenticator := Credentials → Result AuthContext

structure AuthMiddleware where
  authenticator : Authenticator
  requiredPermissions : String → Option (List Permission)

namespace AuthMiddleware

def new (authenticator : Authenticator) : AuthMiddleware :=
  { authenticator, requiredPermissions := fun _ => none }

def requirePermission (m : AuthMiddleware) (service : String) (permission : Permission) :
    AuthMiddleware :=
  let entry := (m.requiredPermissions service).getD []
  { m with
    requiredPermissions := Function.update m.requiredPermissions service (some (entry ++ [permission])) }

def check (m : AuthMiddleware) (now : Nat) (credentials : Credentials) (service method : String) :
    Result AuthContext := do
  let ctx ← m.authenticator credentials
  if !ctx.isValid now then
    throw (.protocol "authentication expired")
  match m.requiredPermissions service with
  | some required =>
    let permission : Permission := { service, method }
    if !required.contains permission && !required.contains Permission.all then
      throw (.protocol "permission denied")
  | none => pure ()
  return ctx

/-- The middleware a sequence of `requirePermission` calls builds. -/
def build (authenticator : Authenticator) (calls : List (String × Permission)) : AuthMiddleware :=
  calls.foldl (fun m c => m.requirePermission c.1 c.2) (new authenticator)

/-- The permissions a sequence of calls requires of a service, in order. -/
def requiredOf (calls : List (String × Permission)) (service : String) : List Permission :=
  (calls.filter fun c => c.1 = service).map Prod.snd

theorem build_snoc (a : Authenticator) (calls : List (String × Permission)) (c : String × Permission) :
    build a (calls ++ [c]) = (build a calls).requirePermission c.1 c.2 := by
  simp [build]

@[simp] theorem build_authenticator (a : Authenticator) (calls : List (String × Permission)) :
    (build a calls).authenticator = a := by
  induction calls using List.reverseRecOn with
  | nil => rfl
  | append_singleton calls c ih => rw [build_snoc]; exact ih

/-- A service has an entry once a call names it, and the entry lists those calls. -/
theorem build_requiredPermissions (a : Authenticator) (calls : List (String × Permission))
    (service : String) : (build a calls).requiredPermissions service =
      if requiredOf calls service = [] then none else some (requiredOf calls service) := by
  induction calls using List.reverseRecOn with
  | nil => rfl
  | append_singleton calls c ih =>
    rw [build_snoc]
    by_cases hc : c.1 = service
    · subst hc
      have happ : requiredOf (calls ++ [c]) c.1 = requiredOf calls c.1 ++ [c.2] := by
        simp [requiredOf]
      rw [happ, if_neg (by simp)]
      simp only [requirePermission, Function.update_self, ih]
      by_cases hnil : requiredOf calls c.1 = [] <;> simp [hnil]
    · have happ : requiredOf (calls ++ [c]) service = requiredOf calls service := by
        simp [requiredOf, hc]
      rw [happ, ← ih]
      exact Function.update_of_ne (Ne.symm hc) ..

/-- What `check` lets through: a client the authenticator vouches for now, and,
for a service with required permissions, a pair that is among those required. -/
theorem check_eq_ok (m : AuthMiddleware) (now : Nat) (credentials : Credentials)
    (service method : String) (ctx : AuthContext) :
    m.check now credentials service method = .ok ctx ↔
      m.authenticator credentials = .ok ctx ∧ ctx.isValid now = true ∧
        ∀ required, m.requiredPermissions service = some required →
          (⟨service, method⟩ : Permission) ∈ required ∨ Permission.all ∈ required := by
  unfold check
  cases ha : m.authenticator credentials with
  | error e => simp [bind, Except.bind]
  | ok c =>
    cases hv : c.isValid now with
    | false =>
      simp only [bind, Except.bind, hv, Bool.not_false, if_true, throw, throwThe, MonadExceptOf.throw,
        reduceCtorEq, Except.ok.injEq, false_iff, not_and]
      rintro rfl hc
      rw [hv] at hc
      cases hc
    | true =>
      cases hr : m.requiredPermissions service with
      | none =>
        simp only [bind, Except.bind, hv, Bool.not_true, Bool.false_eq_true, if_false, pure,
          Except.pure, Except.ok.injEq, reduceCtorEq, false_imp_iff, implies_true, and_true]
        exact ⟨fun h => ⟨h, h ▸ hv⟩, And.left⟩
      | some required =>
        by_cases hin : (⟨service, method⟩ : Permission) ∈ required ∨ Permission.all ∈ required
        · have htest : (!required.contains (⟨service, method⟩ : Permission) &&
              !required.contains Permission.all) = false := by
            rcases hin with h | h <;> simp [h]
          simp only [bind, Except.bind, hv, Bool.not_true, Bool.false_eq_true, if_false, htest, pure,
            Except.pure, Except.ok.injEq, Option.some.injEq, forall_eq', hin, and_true]
          exact ⟨fun h => ⟨h, h ▸ hv⟩, And.left⟩
        · have htest : (!required.contains (⟨service, method⟩ : Permission) &&
              !required.contains Permission.all) = true := by
            rw [not_or] at hin
            simp [hin]
          simp only [bind, Except.bind, hv, Bool.not_true, Bool.false_eq_true, if_false, htest, if_true,
            throw, throwThe, MonadExceptOf.throw, reduceCtorEq, Option.some.injEq, forall_eq', hin,
            and_false]

/-- Where the answer of `check` is backed by the caller's own rights: nothing is
required of the service, or the requirement shuts this pair out for everyone, or
whoever the authenticator vouches for now holds a permission for it. -/
def BackedByCaller (authenticator : Authenticator) (calls : List (String × Permission)) (now : Nat)
    (credentials : Credentials) (service method : String) : Prop :=
  (∀ c ∈ calls, c.1 ≠ service) ∨
  (∀ c ∈ calls, c.1 = service → c.2 ≠ ⟨service, method⟩ ∧ c.2 ≠ Permission.all) ∨
  ∀ ctx, authenticator credentials = .ok ctx → ctx.isValid now = true →
    ∃ q ∈ ctx.permissions, q.Grants ⟨service, method⟩

theorem requiredOf_eq_nil {calls : List (String × Permission)} {service : String} :
    requiredOf calls service = [] ↔ ∀ c ∈ calls, c.1 ≠ service := by
  simp [requiredOf]

theorem mem_requiredOf {calls : List (String × Permission)} {service : String} {p : Permission} :
    p ∈ requiredOf calls service ↔ ∃ c ∈ calls, c.1 = service ∧ c.2 = p := by
  simp [requiredOf, and_assoc]

/-- **`check` authorizes by the caller's own rights exactly where it cannot do
otherwise**: it compares the request with what is required, so the caller's
permissions decide nothing. -/
theorem check_exact (authenticator : Authenticator) (calls : List (String × Permission)) (now : Nat)
    (credentials : Credentials) (service method : String) :
    (∀ ctx, ((build authenticator calls).requiredPermissions service).isSome = true →
      (build authenticator calls).check now credentials service method = .ok ctx →
        ∃ q ∈ ctx.permissions, q.Grants ⟨service, method⟩) ↔
      BackedByCaller authenticator calls now credentials service method := by
  simp only [check_eq_ok, build_authenticator, build_requiredPermissions, BackedByCaller]
  by_cases hnone : requiredOf calls service = []
  · have hall := requiredOf_eq_nil.mp hnone
    simp only [if_pos hnone, Option.isSome_none, Bool.false_eq_true, false_imp_iff, implies_true, true_iff]
    exact .inl hall
  have hsome : ¬ ∀ c ∈ calls, c.1 ≠ service := fun h => hnone (requiredOf_eq_nil.mpr h)
  simp only [if_neg hnone, Option.isSome_some, forall_true_left, Option.some.injEq, forall_eq', hsome,
    false_or, and_imp]
  constructor
  · intro h
    by_cases hin : (⟨service, method⟩ : Permission) ∈ requiredOf calls service ∨
        Permission.all ∈ requiredOf calls service
    · exact .inr fun ctx ha hv => h ctx ha hv hin
    · refine .inl fun c hc hs => ?_
      rw [not_or] at hin
      exact ⟨fun he => hin.1 (mem_requiredOf.mpr ⟨c, hc, hs, he⟩),
        fun he => hin.2 (mem_requiredOf.mpr ⟨c, hc, hs, he⟩)⟩
  · rintro (hshut | hholds) ctx ha hv hin
    · rcases hin with hin | hin <;> obtain ⟨c, hc, hs, he⟩ := mem_requiredOf.mp hin
      · exact absurd he (hshut c hc hs).1
      · exact absurd he (hshut c hc hs).2
    · exact hholds ctx ha hv

/-- A client that holds nothing is let through to a service with a required permission. -/
theorem check_ignores_caller :
    ¬ ∀ (authenticator : Authenticator) (calls : List (String × Permission)) (now : Nat)
        (credentials : Credentials) (service method : String) (ctx : AuthContext),
      ((build authenticator calls).requiredPermissions service).isSome = true →
      (build authenticator calls).check now credentials service method = .ok ctx →
        ∃ q ∈ ctx.permissions, q.Grants ⟨service, method⟩ := by
  intro h
  obtain ⟨q, hq, _⟩ := h (fun _ => .ok ⟨"client", [], none⟩) [("billing", ⟨"billing", "write"⟩)] 0
    ⟨"client", none, none⟩ "billing" "write" ⟨"client", [], none⟩ rfl
    ((check_eq_ok ..).mpr ⟨rfl, rfl, fun required hr => .inl (by cases hr; exact List.mem_singleton.mpr rfl)⟩)
  cases hq

end AuthMiddleware

end XProtocol
