import Mathlib.Data.List.MinMax

/-!
# As-of lookup

A history gives some of its times a value, `m : τ → Option α`. `AsOf m t` is the value at the latest of these times
that is not after `t`. Writing at a time `s` is `Function.update m s`: it changes no answer before `s` or from the next
time with a value on (`update_before`, `update_behind`). `asOf_argmax` reads the answer off a list of rows.
-/

inductive AsOf {τ α : Type} [LinearOrder τ] (m : τ → Option α) (t : τ) : Option α → Prop where
  | absent (h : ∀ s ≤ t, m s = none) : AsOf m t none
  | latest {s : τ} {a : α} (hs : s ≤ t) (ha : m s = some a) (hlast : ∀ s', s < s' → s' ≤ t → m s' = none) :
    AsOf m t (some a)

namespace AsOf

variable {τ α : Type} [LinearOrder τ] {m m' : τ → Option α} {s t : τ} {r r' : Option α}

theorem unique (h : AsOf m t r) (h' : AsOf m t r') : r = r' := by
  cases h with
  | absent h =>
    cases h' with
    | absent => rfl
    | latest hs ha _ =>
      rw [h _ hs] at ha
      cases ha
  | @latest s a hs ha hlast =>
    cases h' with
    | absent h' =>
      rw [h' s hs] at ha
      cases ha
    | @latest s' a' hs' ha' hlast' =>
      rcases lt_trichotomy s s' with hlt | rfl | hlt
      · rw [hlast s' hlt hs'] at ha'
        cases ha'
      · rw [← ha, ← ha']
      · rw [hlast' s hlt hs] at ha
        cases ha

/-- The answer at `t` depends on the times up to `t`. -/
theorem congr (h : AsOf m t r) (hm : ∀ s ≤ t, m' s = m s) : AsOf m' t r := by
  cases h with
  | absent h => exact .absent fun s hs => (hm s hs).trans (h s hs)
  | latest hs ha hlast =>
    exact .latest hs ((hm _ hs).trans ha) fun s' hlt hs' => (hm s' hs').trans (hlast s' hlt hs')

theorem at_time {a : α} (h : m t = some a) : AsOf m t (some a) :=
  .latest le_rfl h fun _ hlt hle => absurd hle (not_le.2 hlt)

/-- A write after `t`. -/
theorem update_before (h : AsOf m t r) (hlt : t < s) (v : Option α) : AsOf (Function.update m s v) t r :=
  h.congr fun _ hle => Function.update_of_ne (hle.trans_lt hlt).ne _ _

/-- A write behind which another time up to `t` has a value. -/
theorem update_behind (h : AsOf m t r) {s' : τ} (hlt : s < s') (hle : s' ≤ t) (hv : m s' ≠ none)
    (v : Option α) : AsOf (Function.update m s v) t r := by
  cases h with
  | absent h => exact absurd (h s' hle) hv
  | @latest q a hq ha hlast =>
    have hsq : s < q := by
      by_contra hqs
      exact hv (hlast s' ((not_lt.1 hqs).trans_lt hlt) hle)
    refine .latest hq ?_ fun p hp hpt => ?_
    · rwa [Function.update_of_ne hsq.ne']
    · rw [Function.update_of_ne (hsq.trans hp).ne']
      exact hlast p hp hpt

/-- **Rows of a history**: the answer is that of the row with the greatest time not after `t`. -/
theorem asOf_argmax {ρ : Type} {rows : List ρ} {time : ρ → τ} {value : ρ → α}
    (hm : ∀ s a, m s = some a ↔ ∃ x ∈ rows, time x = s ∧ value x = a) (t : τ) :
    AsOf m t (((rows.filter fun x => time x ≤ t).argmax time).map value) := by
  cases hmax : (rows.filter fun x => time x ≤ t).argmax time with
  | none =>
    rw [List.argmax_eq_none, List.filter_eq_nil_iff] at hmax
    refine .absent fun s hs => ?_
    by_contra hne
    obtain ⟨a, ha⟩ := Option.ne_none_iff_exists'.1 hne
    obtain ⟨x, hx, rfl, -⟩ := (hm s a).1 ha
    exact hmax x hx (by simpa using hs)
  | some x =>
    obtain ⟨hx, hle⟩ := List.mem_filter.1 (List.argmax_mem hmax)
    refine .latest (by simpa using hle) ((hm _ _).2 ⟨x, hx, rfl, rfl⟩) fun s hlt hs => ?_
    by_contra hne
    obtain ⟨a, ha⟩ := Option.ne_none_iff_exists'.1 hne
    obtain ⟨y, hy, rfl, -⟩ := (hm s a).1 ha
    have hmem : y ∈ rows.filter fun x => time x ≤ t := List.mem_filter.2 ⟨hy, by simpa using hs⟩
    exact not_le.2 hlt (List.le_of_mem_argmax hmem hmax)

end AsOf
