import Dmis.Lib.Greedy
import Mathlib.Data.List.Pairwise
import Mathlib.Data.List.Perm.Basic

/-!
# Pages of an ordered query

`ORDER BY key DESC LIMIT n OFFSET p * n`, one query for each page `p`. A query may return rows with the same key in any
order (`Ordered`), and need not take the same order twice (`IsPage`).

`pages_perm_iff`: whatever the orders, the pages show every row once exactly when no key is cut (`Cut`): at a page
boundary no rows with one key stand on both sides.
-/

namespace Relational

namespace Pages

variable {α κ : Type} [LinearOrder κ] (key : α → κ) (rows : List α)

/-- A result of `ORDER BY key DESC`. -/
structure Ordered (sorted : List α) : Prop where
  perm : sorted.Perm rows
  desc : sorted.Pairwise fun a b => key b ≤ key a

/-- `LIMIT n OFFSET p * n`. -/
def window (n p : ℕ) (l : List α) : List α := (l.drop (p * n)).take n

def IsPage (n p : ℕ) (page : List α) : Prop := ∃ sorted, Ordered key rows sorted ∧ page = window n p sorted

/-- Rows with this key stand on both sides of the boundary. -/
def Cut (boundary : ℕ) (k : κ) : Prop :=
  rows.countP (fun a => k < key a) < boundary ∧ boundary < rows.countP (fun a => k ≤ key a)

variable {key rows}

theorem exists_ordered (key : α → κ) (rows : List α) : ∃ sorted, Ordered key rows sorted :=
  let newestFirst := fun a => OrderDual.toDual (key a)
  ⟨sortOn newestFirst rows, sortOn_perm newestFirst rows, sortOn_pairwise newestFirst rows⟩

/-! ## What stands before a boundary -/

/-- The rows from a key upwards come first. -/
theorem Ordered.take_countP {sorted : List α} (h : Ordered key rows sorted) (k : κ) :
    sorted.take (rows.countP fun a => k ≤ key a) = sorted.filter fun a => k ≤ key a := by
  rw [← h.perm.countP_eq]
  have hdesc := h.desc
  generalize sorted = l at hdesc
  induction l with
  | nil => rfl
  | cons a l ih =>
    obtain ⟨hle, hdesc⟩ := List.pairwise_cons.1 hdesc
    by_cases ha : k ≤ key a
    · rw [List.countP_cons_of_pos (by simpa using ha), List.take_succ_cons, ih hdesc,
        List.filter_cons_of_pos (by simpa using ha)]
    · have hnone : ∀ b ∈ a :: l, ¬ k ≤ key b := by
        intro b hb hk
        rcases List.mem_cons.1 hb with rfl | hb
        · exact ha hk
        · exact ha (hk.trans (hle b hb))
      rw [List.countP_eq_zero.2 (by simpa using hnone), List.take_zero, List.filter_eq_nil_iff.2 (by simpa using hnone)]

theorem exists_split {l : List α} {i : ℕ} (hi : i < l.length) : ∃ u x v, l = u ++ x :: v ∧ u.length = i := by
  refine ⟨l.take i, l[i], l.drop (i + 1), ?_, List.length_take_of_le hi.le⟩
  rw [List.getElem_cons_drop, List.take_append_drop]

section
variable {u v : List α} {x : α}

theorem Ordered.split (h : Ordered key rows (u ++ x :: v)) :
    (∀ a ∈ u, key x ≤ key a) ∧ ∀ b ∈ v, key b ≤ key x := by
  obtain ⟨-, hv, hu⟩ := List.pairwise_append.1 h.desc
  exact ⟨fun a ha => hu a ha x List.mem_cons_self, (List.pairwise_cons.1 hv).1⟩

/-- The key of the row in front of a boundary: above it are fewer rows, from it on at least as many. -/
theorem Ordered.counts (h : Ordered key rows (u ++ x :: v)) :
    rows.countP (fun a => key x < key a) ≤ u.length ∧ u.length + 1 ≤ rows.countP (fun a => key x ≤ key a) := by
  obtain ⟨hu, hv⟩ := h.split
  rw [← h.perm.countP_eq, ← h.perm.countP_eq]
  constructor
  · have hnone : v.countP (fun a => key x < key a) = 0 := List.countP_eq_zero.2 fun b hb => by simpa using hv b hb
    have hle : u.countP (fun a => key x < key a) ≤ u.length := List.countP_le_length
    rw [List.countP_append, List.countP_cons_of_neg (by simp), hnone]
    omega
  · have hall : u.countP (fun a => key x ≤ key a) = u.length :=
      List.countP_eq_length.2 fun a ha => by simpa using hu a ha
    rw [List.countP_append, List.countP_cons_of_pos (by simp), hall]
    omega

end

/-- An uncut boundary has the same rows in front of it in every order. -/
theorem Ordered.take_perm {s s' : List α} (h : Ordered key rows s) (h' : Ordered key rows s') {boundary : ℕ}
    (huncut : ∀ k, ¬ Cut key rows boundary k) : (s.take boundary).Perm (s'.take boundary) := by
  have hsame := h.perm.trans h'.perm.symm
  rcases Nat.eq_zero_or_pos boundary with rfl | hpos
  · rfl
  by_cases hend : s.length ≤ boundary
  · rw [List.take_of_length_le hend, List.take_of_length_le (hsame.length_eq ▸ hend)]
    exact hsame
  · obtain ⟨u, x, v, rfl, hu⟩ := exists_split (l := s) (i := boundary - 1) (by omega)
    obtain ⟨habove, hfrom⟩ := h.counts
    have hcount : boundary = rows.countP fun a => key x ≤ key a := by
      have hcut := huncut (key x)
      unfold Cut at hcut
      omega
    rw [hcount, h.take_countP, h'.take_countP]
    exact hsame.filter _

theorem window_perm {s s' : List α} {n p : ℕ} (h : Ordered key rows s) (h' : Ordered key rows s')
    (hlo : ∀ k, ¬ Cut key rows (p * n) k) (hhi : ∀ k, ¬ Cut key rows ((p + 1) * n) k) :
    (window n p s).Perm (window n p s') := by
  have hsplit : ∀ l : List α, l.take ((p + 1) * n) = l.take (p * n) ++ window n p l := fun l => by
    rw [Nat.succ_mul, List.take_add]
    rfl
  have hboth := h.take_perm h' hhi
  rw [hsplit, hsplit] at hboth
  exact (List.perm_append_left_iff _).1 (((h.take_perm h' hlo).symm.append_right _).trans hboth)

/-! ## The pages together -/

/-- `ceil (rows / n)`, and one page for no rows. -/
def pageCount (n total : ℕ) : ℕ := if 0 < total then (total + n - 1) / n else 1

section
variable {n : ℕ}

theorem lt_pageCount (hn : 0 < n) {total p : ℕ} : p < pageCount n total ↔ p = 0 ∨ p * n < total := by
  unfold pageCount
  split_ifs with htotal
  · rw [← Nat.succ_le_iff, Nat.le_div_iff_mul_le hn, Nat.succ_mul]
    constructor
    · intro h
      omega
    · rintro (rfl | h)
      · omega
      · omega
  · omega

theorem windows_take (l : List α) (m : ℕ) : (List.range m).flatMap (fun p => window n p l) = l.take (m * n) := by
  induction m with
  | zero => simp
  | succ m ih =>
    rw [List.range_succ, List.flatMap_append, ih, List.flatMap_singleton, Nat.succ_mul, List.take_add]
    rfl

/-- The windows of one order. -/
theorem windows (hn : 0 < n) (l : List α) : (List.range (pageCount n l.length)).flatMap (fun p => window n p l) = l := by
  rw [windows_take]
  refine List.take_of_length_le ?_
  have hlast : ¬ pageCount n l.length < pageCount n l.length := lt_irrefl _
  rw [lt_pageCount hn] at hlast
  omega

/-- Every page but the last is full. -/
theorem length_page (hn : 0 < n) {p : ℕ} {page : List α} (h : IsPage key rows n p page)
    (hp : p + 1 < pageCount n rows.length) : page.length = n := by
  obtain ⟨sorted, hsorted, rfl⟩ := h
  rw [lt_pageCount hn, Nat.succ_mul] at hp
  unfold window
  rw [List.length_take, List.length_drop, hsorted.perm.length_eq]
  omega

/-! ## Every row once -/

/-- At a cut two neighbours with one key change places. -/
theorem exists_swap {sorted : List α} (h : Ordered key rows sorted) {boundary : ℕ} {k : κ}
    (hcut : Cut key rows boundary k) :
    ∃ u x y v, sorted = u ++ x :: y :: v ∧ u.length + 1 = boundary ∧ Ordered key rows (u ++ y :: x :: v) := by
  obtain ⟨habove, hfrom⟩ := hcut
  have hlen : rows.countP (fun a => k ≤ key a) ≤ sorted.length := h.perm.length_eq ▸ List.countP_le_length
  obtain ⟨w, y, v, rfl, hw⟩ := exists_split (l := sorted) (i := boundary) (by omega)
  obtain ⟨u, x, rfl⟩ : ∃ u x, w = u ++ [x] := by
    rcases List.eq_nil_or_concat w with rfl | ⟨u, x, rfl⟩
    · simp only [List.length_nil] at hw
      omega
    · exact ⟨u, x, List.concat_eq_append⟩
  rw [List.length_append, List.length_singleton] at hw
  have hy : k ≤ key y := by
    by_contra hlt
    have hle : rows.countP (fun a => k ≤ key a) ≤ rows.countP (fun a => key y < key a) :=
      List.countP_mono_left fun a _ hk => by simpa using (not_le.1 hlt).trans_le (by simpa using hk)
    have hcounts := h.counts.1
    rw [List.length_append, List.length_singleton] at hcounts
    omega
  rw [List.append_assoc, List.singleton_append] at h ⊢
  have hx : key x ≤ k := by
    by_contra hlt
    have hle : rows.countP (fun a => key x ≤ key a) ≤ rows.countP (fun a => k < key a) :=
      List.countP_mono_left fun a _ hk => by simpa using (not_le.1 hlt).trans_le (by simpa using hk)
    have hcounts := h.counts.2
    omega
  have hsame : key x = key y := le_antisymm (hx.trans hy) (h.split.2 y List.mem_cons_self)
  have hperm : (u ++ y :: x :: v).Perm (u ++ x :: y :: v) := (List.Perm.swap x y v).append_left u
  have hdesc : (u ++ y :: x :: v).Pairwise fun a b => key b ≤ key a := by
    have hkeys : (u ++ y :: x :: v).map key = (u ++ x :: y :: v).map key := by simp [hsame]
    have hpair := (List.pairwise_map (f := key) (R := fun a b => b ≤ a)).2 h.desc
    rw [← hkeys] at hpair
    exact List.pairwise_map.1 hpair
  exact ⟨u, x, y, v, rfl, hw, hperm.trans h.perm, hdesc⟩

/-- The row in front of the boundary is shown behind it, too. -/
theorem mem_windows {u v : List α} {x y : α} {p : ℕ} (hn : 0 < n) (hu : u.length + 1 = (p + 1) * n) :
    x ∈ window n p (u ++ x :: y :: v) ∧ x ∈ window n (p + 1) (u ++ y :: x :: v) := by
  have hlo : p * n ≤ u.length := by
    rw [Nat.succ_mul] at hu
    omega
  unfold window
  constructor
  · have htake : ((u ++ x :: y :: v).drop (p * n)).take n = (u ++ [x]).drop (p * n) := by
      rw [← List.singleton_append, ← List.append_assoc, List.drop_append_of_le_length (by simp; omega)]
      refine List.take_left' ?_
      rw [Nat.succ_mul] at hu
      simp
      omega
    rw [htake, List.drop_append_of_le_length hlo]
    exact List.mem_append_right _ List.mem_cons_self
  · rw [← hu, ← List.singleton_append, ← List.append_assoc, List.drop_left' (by simp)]
    obtain ⟨m, rfl⟩ := Nat.exists_eq_add_of_lt hn
    rw [Nat.zero_add, List.take_succ_cons]
    exact List.mem_cons_self

/-- **The pages show every row once**, whatever orders the queries take, exactly when no key is cut. -/
theorem pages_perm_iff (hn : 0 < n) (hnodup : rows.Nodup) :
    (∀ pages : ℕ → List α, (∀ p < pageCount n rows.length, IsPage key rows n p (pages p)) →
      ((List.range (pageCount n rows.length)).flatMap pages).Perm rows) ↔
      ∀ p k, ¬ Cut key rows (p * n) k := by
  obtain ⟨sorted, hsorted⟩ := exists_ordered key rows
  constructor
  · intro hall p k hcut
    obtain ⟨u, x, y, v, rfl, hu, hswapped⟩ := exists_swap hsorted hcut
    obtain ⟨q, rfl⟩ : ∃ q, p = q + 1 := Nat.exists_eq_succ_of_ne_zero (by rintro rfl; omega)
    obtain ⟨hfront, hback⟩ := mem_windows (x := x) (y := y) (v := v) hn hu
    -- all pages but the one behind the cut take the first order
    let pages := fun r => if r = q + 1 then window n r (u ++ y :: x :: v) else window n r (u ++ x :: y :: v)
    have hpages : ∀ r < pageCount n rows.length, IsPage key rows n r (pages r) := by
      intro r _
      by_cases hr : r = q + 1
      · exact ⟨_, hswapped, if_pos hr⟩
      · exact ⟨_, hsorted, if_neg hr⟩
    have hall := (hall pages hpages).nodup_iff.2 hnodup
    have hlen : u.length + 1 < rows.length := by
      rw [← hsorted.perm.length_eq]
      simp
    have hshown : q + 1 < pageCount n rows.length := (lt_pageCount hn).2 (.inr (hu ▸ hlen))
    have hdisjoint := List.pairwise_iff_getElem.1 (List.nodup_flatMap.1 hall).2 q (q + 1) (by simp; omega)
      (by simpa using hshown) (Nat.lt_succ_self q)
    rw [List.getElem_range, List.getElem_range] at hdisjoint
    have hqfront : pages q = window n q (u ++ x :: y :: v) := if_neg (by omega)
    have hqback : pages (q + 1) = window n (q + 1) (u ++ y :: x :: v) := if_pos rfl
    exact hdisjoint (hqfront ▸ hfront) (hqback ▸ hback)
  · intro huncut pages hpages
    refine List.Perm.trans ?_ hsorted.perm
    rw [← hsorted.perm.length_eq] at hpages ⊢
    conv_rhs => rw [← windows hn sorted]
    refine List.Perm.flatMap_left _ fun p hp => ?_
    obtain ⟨s, hs, hpage⟩ := hpages p (List.mem_range.1 hp)
    rw [hpage]
    exact window_perm hs hsorted (huncut p) (huncut (p + 1))

end

end Pages

end Relational
