import Dmis.Staleness

/-!
# A version number tells the row

`version_nbr` is the mapper's version column of `reliefrqst` and `reliefpkg` (`app/db/models.py`), and the pages
compare it to find out whether a row changed. In every run a row with the number it had is the row it was
(`versions_tell`): no operation changes a row and leaves its number, a request is never removed, and the id of a
removed package is not given out again.
-/

namespace Dmis

open Relational Keyed

section
variable {op : Op} {x rqstId : Nat} {a b : Header} {db : Database} {r r' : ReliefRqst} {p q : ReliefPkg}

/-- A step leaves a request as it was, or moves its version on. -/
theorem HeaderStep.rqst_moves (h : HeaderStep op x (some a) (some b)) :
    b.rqst = a.rqst ∨ a.rqst.versionNbr < b.rqst.versionNbr := by
  cases h with
  | editItems | deleteItem | saveDraftApproval | cancelPackage | cancelPreparation | markHandover => exact .inl rfl
  | decide =>
    right
    simp [decided_versionNbr]
  | submitRequest | saveDraft | submitForApproval | sendForDispatch | approveAndDispatch | reviewApproveAndDispatch
  | reviewReject | submitForDispatch => exact .inr (Nat.lt_succ_self _)

/-- The same of a package that stays. -/
theorem HeaderStep.pkg_kept (h : HeaderStep op x (some ⟨r, some p⟩) (some ⟨r', some q⟩)) :
    q = p ∨ p.versionNbr < q.versionNbr := by
  cases h with
  | editItems | deleteItem | submitRequest | decide | cancelPreparation => exact .inl rfl
  | saveDraft =>
    simp only [Option.getD_some]
    unfold ReliefPkg.unmarked
    split
    · exact .inl rfl
    · exact .inr (Nat.lt_succ_self _)
  | submitForApproval | sendForDispatch | saveDraftApproval | approveAndDispatch | reviewApproveAndDispatch
  | reviewReject | submitForDispatch | markHandover => exact .inr (Nat.lt_succ_self _)

/-- A row as it was, or a newer one. -/
def Newer (r r' : ReliefRqst) : Prop := r' = r ∨ r.versionNbr < r'.versionNbr

theorem Newer.trans {r'' : ReliefRqst} (h : Newer r r') (h' : Newer r' r'') : Newer r r'' := by
  rcases h with rfl | h
  · exact h'
  · rcases h' with rfl | h'
    · exact .inr h
    · exact .inr (h.trans h')

theorem step_rqst (hu : UniquePkg db.tables) (op : Op) (hr : db.tables.reliefrqst.get? rqstId = some r) :
    ∃ r', (step db op).tables.reliefrqst.get? rqstId = some r' ∧ Newer r r' := by
  have ha : db.tables.header rqstId = some ⟨r, db.tables.firstPkg rqstId⟩ := by simp [Tables.header, hr]
  obtain ⟨b, hb, -⟩ := step_advances hu op ha
  refine ⟨b.rqst, (header_eq_some.1 hb).1, ?_⟩
  rcases (step_header hu op).2 with he | ⟨y, hs, hother⟩
  · rw [he, ha] at hb
    cases hb
    exact .inl rfl
  · by_cases hy : rqstId = y
    · subst hy
      rw [ha, hb] at hs
      exact hs.rqst_moves
    · rw [hother _ hy, ha] at hb
      cases hb
      exact .inl rfl

/-- A package after a step is one from before, as it was or newer, or its id was drawn from the sequence. -/
theorem step_pkg_kept (hu : UniquePkg db.tables) (hq : q ∈ (step db op).tables.reliefpkg.rows) :
    (∃ p ∈ db.tables.reliefpkg.rows, p.reliefpkgId = q.reliefpkgId ∧ (q = p ∨ p.versionNbr < q.versionNbr)) ∨
      db.tables.nextReliefpkgId ≤ q.reliefpkgId := by
  obtain ⟨hu', hstep⟩ := step_header hu op
  refine (step_pkgs hu hq).imp_left ?_
  rintro ⟨p, hp, hid, hr, -⟩
  refine ⟨p, hp, hid, ?_⟩
  obtain ⟨r, ha⟩ := header_of_pkg hu db.consistent hp
  obtain ⟨r', hb⟩ := header_of_pkg hu' (step db op).consistent hq
  rw [← hr] at hb
  -- both are the package of the same request
  have hsame : (step db op).tables.header p.reliefrqstId = db.tables.header p.reliefrqstId → q = p := fun he => by
    rw [ha, hb] at he
    cases he
    rfl
  rcases hstep with he | ⟨x, hs, hother⟩
  · exact .inl (hsame (by rw [he]))
  · by_cases hx : p.reliefrqstId = x
    · subst hx
      rw [ha, hb] at hs
      exact hs.pkg_kept
    · exact .inl (hsame (hother _ hx))

/-- What there is of a package since a state that had it: the package as it was, a newer one, or none. -/
structure SinceRow (p : ReliefPkg) (db : Database) : Prop where
  unique : UniquePkg db.tables
  issued : p.reliefpkgId < db.tables.nextReliefpkgId
  kept : ∀ q ∈ db.tables.reliefpkg.rows, q.reliefpkgId = p.reliefpkgId → q = p ∨ p.versionNbr < q.versionNbr

theorem SinceRow.step (h : SinceRow p db) (op : Op) : SinceRow p (step db op) := by
  refine ⟨(step_header h.unique op).1, h.issued.trans_le (step_freshIds _ _).1, fun q hq hid => ?_⟩
  rcases step_pkg_kept h.unique hq with ⟨p', hp', hid', hq'⟩ | hnew
  · rcases h.kept p' hp' (hid'.trans hid) with rfl | hlt
    · exact hq'
    · rcases hq' with rfl | hq'
      · exact .inr hlt
      · exact .inr (hlt.trans hq')
  · exact absurd h.issued (by rw [← hid]; exact hnew.not_gt)

end

/-- **A version number tells the row**: between any two moments of any run, a request or a package that shows the
number it had is what it was, in every column. -/
theorem versions_tell (db : Database) (h : Reachable db) (ops : List Op) :
    (∀ r ∈ db.tables.reliefrqst.rows, ∀ r' ∈ (run step db ops).tables.reliefrqst.rows,
      r'.reliefrqstId = r.reliefrqstId → r'.versionNbr = r.versionNbr → r' = r) ∧
    ∀ p ∈ db.tables.reliefpkg.rows, ∀ p' ∈ (run step db ops).tables.reliefpkg.rows,
      p'.reliefpkgId = p.reliefpkgId → p'.versionNbr = p.versionNbr → p' = p := by
  refine ⟨fun r hr r' hr' hid hv => ?_, fun p hp p' hp' hid hv => ?_⟩
  · have hrun : UniquePkg (run step db ops).tables ∧
        ∃ r'', (run step db ops).tables.reliefrqst.get? r.reliefrqstId = some r'' ∧ Newer r r'' := by
      refine run_invariant (I := fun d : Database => UniquePkg d.tables ∧
        ∃ r'', d.tables.reliefrqst.get? r.reliefrqstId = some r'' ∧ Newer r r'') (fun d op hd => ?_)
        ⟨h.unique, r, Table.get?_key hr, .inl rfl⟩ ops
      obtain ⟨hu, r₁, hr₁, hn₁⟩ := hd
      obtain ⟨r₂, hr₂, hn₂⟩ := step_rqst hu op hr₁
      exact ⟨(step_header hu op).1, r₂, hr₂, hn₁.trans hn₂⟩
    obtain ⟨-, r'', hr'', hn⟩ := hrun
    have hget : (run step db ops).tables.reliefrqst.get? r.reliefrqstId = some r' := by
      rw [← hid]
      exact Table.get?_key hr'
    cases Option.mem_unique hr'' hget
    rcases hn with he | hlt
    · exact he
    · exact absurd hv hlt.ne'
  · have hstart : SinceRow p db := by
      refine ⟨h.unique, h.issuedIds _ (List.mem_map.2 ⟨p, hp, rfl⟩), fun q hq hid => ?_⟩
      exact .inl (List.inj_on_of_nodup_map db.tables.reliefpkg.nodup hq hp hid)
    have hrun := run_invariant (I := SinceRow p) (fun d op hd => hd.step op) hstart ops
    rcases hrun.kept p' hp' hid with he | hlt
    · exact he
    · exact absurd hv hlt.ne'

/-- A second save writes the rows of the package and leaves its header, and so its number, alone. -/
theorem versions_tell_site :
    (run step Site.drafted [.preparePackage Site.officer 1 .saveDraft (Site.post 4 (.num 1) 3)]).tables.reliefpkg.rows =
      [newPkg Site.officer Site.rqst 1] := by
  have h := (versions_tell Site.drafted (.step (.initial rfl) _)
    [.preparePackage Site.officer 1 .saveDraft (Site.post 4 (.num 1) 3)]).2 (newPkg Site.officer Site.rqst 1)
    (by decide +kernel)
  have hone : (run step Site.drafted
      [.preparePackage Site.officer 1 .saveDraft (Site.post 4 (.num 1) 3)]).tables.reliefpkg.rows.map
        (fun p => (p.reliefpkgId, p.versionNbr)) = [(1, 1)] := by decide +kernel
  obtain ⟨p, hp, he⟩ := List.map_eq_singleton_iff.1 hone
  rw [Prod.mk.injEq] at he
  have hm : p ∈ [p] := List.mem_singleton_self p
  rw [← hp] at hm
  rw [hp, h p hm he.1 he.2]

end Dmis
