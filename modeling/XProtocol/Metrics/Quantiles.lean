import Mathlib.Data.List.TakeWhile
import Mathlib.Order.Bounds.Basic
import Mathlib.Tactic.GCongr
import XProtocol.Metrics.Percentiles

/-! What the percentiles of a histogram are.

The bucket of a value is where a search of the bounds ends, whether it finds the value or not
(`index_of_searched`), so that each bound but the first has the values between the one before it
and itself. A percentile is the least bound that is at or above as many of the values as
its rank says (`quantiles`), if the rank is computed exactly. -/
namespace XProtocol.Histogram

/-- What `binary_search` may answer: where the value is, or where it belongs. -/
def Searched (bounds : List Nat) (value : Nat) : Except Nat Nat → Prop
  | .ok i => ∃ before after, bounds = before ++ value :: after ∧ before.length = i
  | .error i => ∃ before after, bounds = before ++ after ∧ before.length = i ∧
      (∀ b ∈ before, b < value) ∧ ∀ b ∈ after, value < b

/-- `match .. { Ok(i) => i, Err(i) => i }`. -/
def either : Except Nat Nat → Nat
  | .ok i => i
  | .error i => i

/-- The histogram of these values. -/
def observed (bounds values : List Nat) : Histogram := values.foldl observe (new bounds)

/-- The result is the least of the bounds that reach the rank, or the last one where none does. -/
def IsQuantile (bounds values : List Nat) (rank result : Nat) : Prop :=
  IsLeast {b | b ∈ bounds ∧ rank ≤ values.countP (· ≤ b)} result ∨
    (∀ b ∈ bounds, values.countP (· ≤ b) < rank) ∧ bounds.getLast? = some result

variable {bounds values : List Nat} {value : Nat}

/-! ### Buckets -/

theorem index_split {before after : List Nat} (hbelow : ∀ b ∈ before, b < value)
    (habove : ∀ b ∈ after, value ≤ b) :
    index (before ++ after) value = before.length := by
  have hall : ∀ b ∈ before, decide (b < value) = true := fun b hb => decide_eq_true (hbelow b hb)
  unfold index
  rw [List.takeWhile_append_of_pos hall, List.length_append]
  cases after with
  | nil => rfl
  | cons b after =>
    rw [List.takeWhile_cons, if_neg (by simpa using habove b List.mem_cons_self)]
    rfl

/-- **Found or not, a search ends at the bucket of the value.** -/
theorem index_of_searched (hsorted : bounds.Pairwise (· < ·)) {r : Except Nat Nat} (h : Searched bounds value r) :
    either r = index bounds value := by
  cases r with
  | ok i =>
    obtain ⟨before, after, rfl, rfl⟩ := h
    obtain ⟨-, hafter, hbelow⟩ := List.pairwise_append.mp hsorted
    refine (index_split (fun b hb => hbelow b hb value List.mem_cons_self) fun b hb => ?_).symm
    rcases List.mem_cons.mp hb with rfl | hb
    · exact Nat.le_refl _
    · exact ((List.pairwise_cons.mp hafter).1 b hb).le
  | error i =>
    obtain ⟨before, after, rfl, rfl, hbelow, habove⟩ := h
    exact (index_split hbelow fun b hb => (habove b hb).le).symm

theorem exists_searched (hsorted : bounds.Pairwise (· < ·)) (value : Nat) : ∃ r, Searched bounds value r := by
  have hsplit : bounds.takeWhile (· < value) ++ bounds.dropWhile (· < value) = bounds :=
    List.takeWhile_append_dropWhile
  have hbelow : ∀ b ∈ bounds.takeWhile (· < value), b < value := fun b hb => by
    simpa using List.mem_takeWhile_imp hb
  cases hrest : bounds.dropWhile (· < value) with
  | nil =>
    rw [hrest] at hsplit
    exact ⟨.error _, _, [], hsplit.symm, rfl, hbelow, nofun⟩
  | cons b after =>
    rw [hrest] at hsplit
    have hle : value ≤ b := by
      have hhead := List.head?_dropWhile_not (fun x => decide (x < value)) bounds
      simpa [hrest] using hhead
    obtain ⟨-, hafter, -⟩ := List.pairwise_append.mp (hsplit ▸ hsorted)
    obtain ⟨hlt, -⟩ := List.pairwise_cons.mp hafter
    rcases Nat.eq_or_lt_of_le hle with rfl | hb
    · exact ⟨.ok _, _, after, hsplit.symm, rfl⟩
    · exact ⟨.error _, _, b :: after, hsplit.symm, rfl, hbelow,
        List.forall_mem_cons.mpr ⟨hb, fun x hx => hb.trans (hlt x hx)⟩⟩

/-! ### Observations -/

theorem observed_snoc (bounds values : List Nat) (value : Nat) :
    observed bounds (values ++ [value]) = (observed bounds values).observe value := List.foldl_append

theorem observed_counts (bounds : List Nat) {values : List Nat} (hlen : values.length < 2 ^ 64) :
    (observed bounds values).bounds = bounds ∧ (observed bounds values).Counts values := by
  induction values using List.reverseRecOn with
  | nil => exact ⟨rfl, counts_new bounds⟩
  | append_singleton values value ih =>
    rw [List.length_append, List.length_singleton] at hlen
    obtain ⟨hbounds, hcounts⟩ := ih (by omega)
    rw [observed_snoc]
    exact ⟨hbounds, observe_counts hcounts hlen value⟩

/-- No bucket wraps around: the one of the value is raised. -/
theorem observe_buckets {h : Histogram} (hcounts : h.Counts values) (hlen : values.length + 1 < 2 ^ 64)
    (value : Nat) :
    (h.observe value).buckets = h.buckets.modify (index h.bounds value) (· + 1) := by
  unfold Counts at hcounts
  unfold observe
  simp only [hcounts]
  refine List.ext_getElem (by simp) fun i hi _ => ?_
  have hle : values.countP (fun v => index h.bounds v = i) ≤ values.length := List.countP_le_length
  simp only [List.getElem_modify, List.getElem_map, List.getElem_range, fetchAdd]
  split
  · exact Nat.mod_eq_of_lt (by omega)
  · rfl

theorem sum_modify {buckets : List Nat} {i : Nat} (hi : i < buckets.length) :
    (buckets.modify i (· + 1)).sum = buckets.sum + 1 := by
  induction buckets generalizing i with
  | nil => cases hi
  | cons b rest ih =>
    cases i with
    | zero =>
      rw [List.modify_zero_cons, List.sum_cons, List.sum_cons]
      omega
    | succ i =>
      rw [List.modify_succ_cons, List.sum_cons, List.sum_cons, ih (Nat.lt_of_succ_lt_succ hi)]
      omega

theorem index_lt {h : Histogram} (hcounts : h.Counts values) (value : Nat) :
    index h.bounds value < h.buckets.length := by
  have hlength : h.buckets.length = h.bounds.length + 1 := by rw [hcounts, List.length_map, List.length_range]
  have hle : index h.bounds value ≤ h.bounds.length := (List.takeWhile_prefix _).length_le
  omega

theorem sum_observed (bounds : List Nat) {values : List Nat} (hlen : values.length < 2 ^ 64) :
    (observed bounds values).buckets.sum = values.length := by
  induction values using List.reverseRecOn with
  | nil => simp [observed, new]
  | append_singleton values value ih =>
    rw [List.length_append, List.length_singleton] at hlen
    have hbefore : values.length < 2 ^ 64 := by omega
    obtain ⟨-, hcounts⟩ := observed_counts bounds hbefore
    rw [observed_snoc, observe_buckets hcounts hlen, sum_modify (index_lt hcounts value), ih hbefore,
      List.length_append, List.length_singleton]

/-! ### Quantiles -/

theorem isQuantile_find (hbounds : bounds ≠ []) (hsorted : bounds.Pairwise (· < ·)) (rank : Nat) :
    IsQuantile bounds values rank ((bounds.find? fun b => rank ≤ values.countP (· ≤ b)).getD
      (lastBound bounds)) := by
  cases hfind : bounds.find? fun b => rank ≤ values.countP (· ≤ b) with
  | none =>
    have hnone := List.find?_eq_none.mp hfind
    refine .inr ⟨fun b hb => Nat.lt_of_not_le fun h => hnone b hb (decide_eq_true h), ?_⟩
    rw [Option.getD_none, lastBound, List.getLast?_eq_some_getLast hbounds]
    rfl
  | some b =>
    obtain ⟨hb, before, after, rfl, hbefore⟩ := List.find?_eq_some_iff_append.mp hfind
    obtain ⟨-, hafter, -⟩ := List.pairwise_append.mp hsorted
    refine .inl ⟨⟨List.mem_append_right _ List.mem_cons_self, of_decide_eq_true hb⟩, ?_⟩
    rintro c ⟨hc, hreaches⟩
    rcases List.mem_append.mp hc with hc | hc
    · exact absurd hreaches (by simpa using hbefore c hc)
    · rcases List.mem_cons.mp hc with rfl | hc
      · exact Nat.le_refl _
      · exact ((List.pairwise_cons.mp hafter).1 c hc).le

/-- No bound is above the last one. -/
theorem le_last (hsorted : bounds.Pairwise (· < ·)) {b last : Nat} (hb : b ∈ bounds)
    (hlast : bounds.getLast? = some last) : b ≤ last := by
  obtain ⟨before, rfl⟩ := List.getLast?_eq_some_iff.mp hlast
  rcases List.mem_append.mp hb with hb | hb
  · exact ((List.pairwise_append.mp hsorted).2.2 b hb last (List.mem_singleton_self _)).le
  · exact (List.mem_singleton.mp hb).le

/-- A higher rank is reached later. -/
theorem IsQuantile.mono (hsorted : bounds.Pairwise (· < ·)) {rank rank' x y : Nat} (hle : rank ≤ rank')
    (hx : IsQuantile bounds values rank x) (hy : IsQuantile bounds values rank' y) : x ≤ y := by
  have hmem : x ∈ bounds := hx.elim (fun h => h.1.1) fun h => List.mem_of_getLast? h.2
  rcases hy with ⟨⟨hy, hreaches⟩, -⟩ | ⟨-, hlast⟩
  · rcases hx with ⟨-, hleast⟩ | ⟨hnone, -⟩
    · exact hleast ⟨hy, hle.trans hreaches⟩
    · exact absurd (hle.trans hreaches) (Nat.not_le.mpr (hnone y hy))
  · exact le_last hsorted hmem hlast

/-- **A histogram's percentiles are the quantiles of its buckets**, wherever their ranks are computed
exactly; every observation raises one bucket, which is there. -/
theorem quantiles {bounds values : List Nat} (hbounds : bounds ≠ []) (hsorted : bounds.Pairwise (· < ·))
    (hvalues : values ≠ []) (hlen : values.length < 2 ^ 64) :
    (∀ earlier value rest, values = earlier ++ value :: rest → (∃ r, Searched bounds value r) ∧
      ∀ r, Searched bounds value r → either r < (observed bounds earlier).buckets.length ∧
        (observed bounds (earlier ++ [value])).buckets =
          (observed bounds earlier).buckets.modify (either r) (· + 1)) ∧
    (observed bounds values).buckets.sum = values.length ∧
    (∀ p : ℚ, 0 < p → p ≤ 100 → target p values.length = ⌈(values.length : ℚ) * p / 100⌉₊ →
      IsQuantile bounds values ⌈(values.length : ℚ) * p / 100⌉₊
        ((observed bounds values).percentile p values.length)) ∧
    ∀ p q : ℚ, 0 < p → p ≤ q → q ≤ 100 → target p values.length = ⌈(values.length : ℚ) * p / 100⌉₊ →
      target q values.length = ⌈(values.length : ℚ) * q / 100⌉₊ →
      (observed bounds values).percentile p values.length ≤
        (observed bounds values).percentile q values.length := by
  obtain ⟨hsame, hcounts⟩ := observed_counts bounds hlen
  have hsorted' : (observed bounds values).bounds.Pairwise (· < ·) := by rwa [hsame]
  have hquantile (p : ℚ) (hexact : target p values.length = ⌈(values.length : ℚ) * p / 100⌉₊) :
      IsQuantile bounds values ⌈(values.length : ℚ) * p / 100⌉₊
        ((observed bounds values).percentile p values.length) := by
    rw [percentile_eq hcounts hsorted' (List.length_pos_of_ne_nil hvalues), hsame, hexact]
    exact isQuantile_find hbounds hsorted _
  refine ⟨?_, sum_observed bounds hlen, fun p _ _ => hquantile p, fun p q hp hpq _ hexact hexact' => ?_⟩
  · rintro earlier value rest rfl
    rw [List.length_append, List.length_cons] at hlen
    have hbefore : earlier.length < 2 ^ 64 := by omega
    obtain ⟨hearlier, hcounts⟩ := observed_counts bounds hbefore
    refine ⟨exists_searched hsorted value, fun r hr => ?_⟩
    have hindex : either r = index (observed bounds earlier).bounds value := by
      rw [hearlier]
      exact index_of_searched hsorted hr
    rw [hindex, observed_snoc]
    exact ⟨index_lt hcounts value, observe_buckets hcounts (by omega) value⟩
  · refine (hquantile p hexact).mono hsorted (Nat.ceil_mono ?_) (hquantile q hexact')
    gcongr

/-- Four values in four buckets. -/
theorem quantiles_four : ∃ median, (observed [10, 50, 100] [5, 25, 75, 150]).percentile 50 4 = median ∧
    IsQuantile [10, 50, 100] [5, 25, 75, 150] 2 median := by
  have hexact : target ((50 : Nat) : ℚ) 4 = 2 := target_eq (by decide) (by decide)
  have hrank : ⌈(([5, 25, 75, 150] : List Nat).length : ℚ) * 50 / 100⌉₊ = 2 := by norm_num
  have h := (@quantiles [10, 50, 100] [5, 25, 75, 150] (by decide) (by decide) (by decide)
    (by decide)).2.2.1 50 (by norm_num) (by norm_num) (by rw [hrank]; exact_mod_cast hexact)
  rw [hrank] at h
  exact ⟨_, rfl, h⟩

end XProtocol.Histogram
