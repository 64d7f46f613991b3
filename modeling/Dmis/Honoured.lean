import Dmis.Conservation
import Dmis.ExecutiveAccess
import Dmis.SavedPlans

/-!
# A reservation is honoured

A package that waits for approval has its stock reserved, and the review page takes exactly that
(`packaging.py:110-316`). Where the ledger is exact the stock is there, in whatever order the waiting packages are
dispatched: no dispatch takes what another one has reserved, and none is refused (`reservations_honoured`).
-/

namespace Dmis

open Relational Keyed

/-- The ledger is exact, a request has one package, and a warehouse that has batches has a total. -/
structure Settled (t : Tables) : Prop where
  ledger : Ledger t
  unique : UniquePkg t
  covered : Covered t

/-- The package waits for approval, the post shows its request and itself, and what its items say is what its rows
have. -/
structure Waiting (t : Tables) (p : ReliefPkg) (post : Post) : Prop where
  mem : p ∈ t.reliefpkg.rows
  pending : p.statusCode = .pending
  rqst : ∃ r, t.reliefrqst.get? p.reliefrqstId = some r ∧ post.rqstVersion = .num r.versionNbr ∧ 2 ≤ r.statusCode.code
  version : post.pkgVersion = .num p.versionNbr
  rows : t.pkgItems p.reliefpkgId ≠ [] ∨ AllUnavailable (t.rqstItems p.reliefrqstId)
  issued : (∃ i ∈ t.rqstItems p.reliefrqstId, 0 < i.issueQty) ∨ AllUnavailable (t.rqstItems p.reliefrqstId)
  issues : IssuesMatch (t.rqstItems p.reliefrqstId) (t.pkgItems p.reliefpkgId)

/-- The post of the review page. -/
def Op.approve (ctx : Ctx) (d : ReliefPkg × Post) : Op := .reviewApproval ctx d.1.reliefrqstId .approveAndDispatch d.2

section
variable {t t' a : Tables} {p q : ReliefPkg} {r : ReliefRqst} {post : Post} {ctx : Ctx} {db : Database} {x : Nat}

theorem Waiting.undispatched (h : Waiting t p post) : p.statusCode ≠ .dispatched := by
  rw [h.pending]; decide

theorem Settled.balanced (hs : Settled t) (hc : t.Consistent) (h : Waiting t p post) : Balanced t p :=
  ⟨hs.ledger, hc, hs.covered, hs.unique, h.mem, h.undispatched⟩

/-! ## The checks of the database -/

/-- A header rewritten in place passes when it passes its own checks. -/
theorem setPkg_consistent (hc : t.Consistent) (hq : q.Check) (hr : q.reliefrqstId ∈ t.reliefrqst.keys) :
    (t.setPkg q).Consistent := by
  have hst : (t.setPkg q).rounded = t.setPkg q := by
    show ({ t.rounded with reliefpkg := t.reliefpkg.set q } : Tables) = _
    rw [hc.stored]
    rfl
  refine { hc with stored := hst, pkg := fun y hy => ?_, fkPkg := fun y hy => ?_, fkPkgItem := fun i hi => ?_ }
  · rcases Table.mem_set hy with rfl | ⟨hy, -⟩
    · exact hq
    · exact hc.pkg y hy
  · rcases Table.mem_set hy with rfl | ⟨hy, -⟩
    · exact hr
    · exact hc.fkPkg y hy
  · show i.reliefpkgId ∈ (t.reliefpkg.set q).keys
    rw [Table.keys_set]
    exact hc.fkPkgItem i hi

/-- A stock in two decimals whose ledger is exact passes the checks of its columns. -/
theorem Ledger.checks (hl : Ledger a) (hc : t.Consistent)
    (hb : ∀ b ∈ a.itembatch.rows, ∃ b₀ ∈ t.itembatch.rows,
      b = { b₀ with usableQty := b.usableQty, reservedQty := b.reservedQty })
    (hv : ∀ v ∈ a.inventory.rows, ∃ v₀ ∈ t.inventory.rows,
      v = { v₀ with usableQty := v.usableQty, reservedQty := v.reservedQty }) :
    (∀ b ∈ a.itembatch.rows, b.rounded.Check) ∧ ∀ v ∈ a.inventory.rows, v.rounded.Check := by
  refine ⟨fun b hm => ?_, fun v hm => ?_⟩
  · obtain ⟨b₀, hm₀, he⟩ := hb b hm
    obtain ⟨hu, hr⟩ := hl.batchScale b hm
    have hst := rounded_batch_with hc hm₀ (hu.mono (by norm_num : 2 ≤ 4)) (hr.mono (by norm_num : 2 ≤ 4))
    obtain ⟨h0, hle⟩ := hl.bounds b hm
    obtain ⟨-, -, hdef, hexp⟩ := hc.batch b₀ hm₀
    rw [he, hst]
    exact ⟨h0.trans hle, ⟨hle, h0⟩, hdef, hexp⟩
  · obtain ⟨v₀, hm₀, he⟩ := hv v hm
    have hu : AtScale 2 v.usableQty := hl.usableTotal v hm ▸ batchSum_atScale (fun b hb => (hl.batchScale b hb).1) _
    have hr : AtScale 2 v.reservedQty := hl.reservedTotal v hm ▸ batchSum_atScale (fun b hb => (hl.batchScale b hb).2) _
    obtain ⟨-, -, hdef, hexp⟩ := hc.inventory v₀ hm₀
    have hle : v.reservedQty ≤ v.usableQty := by
      rw [hl.reservedTotal v hm, hl.usableTotal v hm]
      exact batchSum_le (fun b hb => (hl.bounds b hb).2) v.key
    have h0 : 0 ≤ v.usableQty := by
      rw [hl.usableTotal v hm]
      exact batchSum_nonneg (fun b hb => (hl.bounds b hb).1.trans (hl.bounds b hb).2) v.key
    rw [he, rounded_total_with hc hm₀ hu hr]
    exact ⟨h0, hle, hdef, hexp⟩

/-! ## One dispatch -/

theorem approveGate_waiting (hs : Settled t) (hc : t.Consistent) (h : Waiting t p post)
    (hrole : ctx.logisticsManager = true) (hr : t.reliefrqst.get? p.reliefrqstId = some r) :
    approveGate ctx p.reliefrqstId t = .ok (r, p) := by
  have hfirst := (hs.balanced hc h).firstPkg
  have hpend : t.pendingPkg p.reliefrqstId = some p := by
    rw [Tables.pendingPkg, packages_eq hs.unique, hfirst]
    simp [h.pending]
  have hdt : p.dispatchDtime = none := by
    rcases hc.pkg p h.mem with ⟨hd, -⟩ | ⟨-, hd⟩
    · exact hd
    · exact absurd hd h.undispatched
  simp only [approveGate, bind_ok, check_ok, require_ok, pure_ok, exists_const]
  exact ⟨hrole, r, hr, p, hpend, hdt, rfl⟩

/-- **A waiting package is dispatched.** -/
theorem Waiting.commits (h : Waiting db.tables p post) (hs : Settled db.tables) (hrole : ctx.logisticsManager = true) :
    Commits db (.approve ctx (p, post)) := by
  have hc := db.consistent
  have hbal := hs.balanced hc h
  obtain ⟨r, hr, hver, hcode⟩ := h.rqst
  have hrid : r.reliefrqstId = p.reliefrqstId := Table.key_of_get? hr
  obtain ⟨a, ha, hkeys, hbatch, htotal, -⟩ := hbal.review ctx
  have hcommit : commitInventory p.reliefrqstId (db.tables.setPkg (p.dispatch ctx)) = .ok a := ha
  have hl := commitInventory_ledger hs.ledger hc hbal.firstPkg h.undispatched (q := p.dispatch ctx) rfl rfl rfl hcommit
  obtain ⟨_, -, hframe, -⟩ := commitInventory_ok hcommit
  have hroute : (Op.approve ctx (p, post)).route db.tables = .ok (a.setRqst (r.actedOn ctx)) := by
    simp only [Op.approve, Op.route, reviewApproval, reviewApproveAndDispatch, bind_ok, check_ok, pure_ok, exists_const]
    refine ⟨(r, p), approveGate_waiting hs hc h hrole hr, (), validateVersionNbr_ok.2 hver, (),
      validateVersionNbr_ok.2 h.version, (), ?_, ?_, a, ?_, rfl⟩
    · rw [hrid]
      exact checkPackageItems_ok.2 ⟨h.rows, h.issues⟩
    · rw [hrid]
      exact h.issued
    · rw [hrid]
      exact hcommit
  -- the headers first, then the stock
  have hreviewed : (r.actedOn ctx).Check := by
    obtain ⟨-, h4, -⟩ := hc.rqst r (Table.mem_of_get? hr)
    have hsome : r.reviewById.isSome = true := by
      rcases h4 with ⟨-, hlt⟩ | ⟨hsome, -⟩
      · omega
      · exact hsome
    have hpart : (r.actedOn ctx).statusCode = .partFilled := rfl
    exact ⟨.inr (by simp [hpart]), .inr ⟨hsome, by simp [hpart, RqstStatus.code]⟩,
      .inr ⟨rfl, by simp [hpart, RqstStatus.code]⟩⟩
  have hpkg : (db.tables.setPkg (p.dispatch ctx)).Consistent :=
    setPkg_consistent hc (.inr ⟨rfl, rfl⟩) (hc.fkPkg p h.mem)
  have hbase : ((db.tables.setPkg (p.dispatch ctx)).setRqst (r.actedOn ctx)).Consistent := by
    have hrounded := setRqst_consistent hpkg hreviewed
    have hst : ((db.tables.setPkg (p.dispatch ctx)).setRqst (r.actedOn ctx)).rounded =
        (db.tables.setPkg (p.dispatch ctx)).setRqst (r.actedOn ctx) :=
      congrArg (fun t : Tables => t.setRqst (r.actedOn ctx)) hpkg.stored
    rwa [hst] at hrounded
  obtain ⟨hbs, hvs⟩ := hl.checks hc (fun b hb => by
    obtain ⟨b₀, hb₀, he⟩ := Table.exists_of_map (k := b.key) hbatch hb rfl
    exact ⟨b₀, Table.mem_of_get? hb₀, by rw [← he]; rfl⟩) fun v hv => by
      have hg : a.inventory.get? v.key = some v := Table.get?_key hv
      rw [htotal] at hg
      split at hg
      · obtain ⟨v₀, hv₀, he⟩ := Option.map_eq_some_iff.1 hg
        exact ⟨v₀, Table.mem_of_get? hv₀, by rw [← he]⟩
      · exact ⟨v, Table.mem_of_get? hg, rfl⟩
  have hcon : (a.setRqst (r.actedOn ctx)).rounded.Consistent := by
    rw [hframe]
    exact stock_consistent hbase hkeys hbs hvs
  exact ⟨⟨_, hcon⟩, exec_ok.2 ⟨_, hroute, hcon, rfl⟩⟩

/-! ## The others -/

/-- After a dispatch the stock is as settled as before. -/
theorem Settled.approve (hs : Settled db.tables) (h : Waiting db.tables p post) (hrole : ctx.logisticsManager = true) :
    Settled (step db (.approve ctx (p, post))).tables := by
  have hbal := hs.balanced db.consistent h
  obtain ⟨t', ht', -, he⟩ := step_of_commits (h.commits hs hrole)
  obtain ⟨a, ha, hsame⟩ := reviewApproval_stock hbal ht'
  obtain ⟨a', ha', hkeys, -, htotal, -⟩ := hbal.review ctx
  cases ha.symm.trans ha'
  refine ⟨step_careful hs.ledger hs.unique trivial, (step_header hs.unique _).1, ?_⟩
  rw [he]
  intro b hb
  obtain ⟨b₁, hb₁, rfl⟩ := List.mem_map.1 hb
  -- the batch was there, and so was its total
  have hget : a.itembatch.get? b₁.key = some b₁ := by
    rw [← hsame.batch]
    exact Table.get?_key hb₁
  have hkey : b₁.key ∈ db.tables.itembatch.keys := by
    rw [← hkeys]
    exact List.mem_map.2 ⟨b₁, Table.mem_of_get? hget, rfl⟩
  obtain ⟨b₀, hb₀, hk⟩ := List.mem_map.1 hkey
  have hcov := hs.covered b₀ hb₀
  rw [show b₀.key = b₁.key from hk] at hcov
  have htot : a.inventory.get? b₁.key.stock ≠ none := by
    rw [htotal]
    split
    · simpa using hcov
    · exact hcov
  show (t'.rounded.inventory.get? b₁.key.stock) ≠ none
  rw [Tables.rounded, Table.get?_mapRows, hsame.total]
  simpa using htot

/-- Another package waits on. -/
theorem Waiting.other {p' : ReliefPkg} {post' : Post} (h' : Waiting db.tables p' post') (hs : Settled db.tables)
    (h : Waiting db.tables p post) (hrole : ctx.logisticsManager = true) (hne : p'.reliefrqstId ≠ p.reliefrqstId) :
    Waiting (step db (.approve ctx (p, post))).tables p' post' := by
  have hc := db.consistent
  obtain ⟨t', ht', -, he⟩ := step_of_commits (h.commits hs hrole)
  obtain ⟨-, y, hstep, hh⟩ := commits_header hs.unique (h.commits hs hrole)
  obtain rfl : p.reliefrqstId = y := hstep.targets rfl
  obtain ⟨hframe, -, -⟩ := reviewApproval_frame ht'
  have hitems : (step db (.approve ctx (p, post))).tables.reliefrqstItem = db.tables.reliefrqstItem := by
    have hst := congrArg Tables.reliefrqstItem hc.stored
    rw [he, hframe]
    exact hst
  have hrows : (step db (.approve ctx (p, post))).tables.reliefpkgItem = db.tables.reliefpkgItem := by
    have hst := congrArg Tables.reliefpkgItem hc.stored
    rw [he, hframe]
    exact hst
  obtain ⟨r, hr, hver, hcode⟩ := h'.rqst
  have hhead : db.tables.header p'.reliefrqstId = some ⟨r, some p'⟩ :=
    header_eq_some.2 ⟨hr, (hs.balanced hc h').firstPkg⟩
  rw [← hh _ hne] at hhead
  refine ⟨(mem_of_header hhead).1, h'.pending, ⟨r, (header_eq_some.1 hhead).1, hver, hcode⟩, h'.version, ?_, ?_, ?_⟩
  · simp only [Tables.pkgItems, Tables.rqstItems, hitems, hrows]
    exact h'.rows
  · simp only [Tables.rqstItems, hitems]
    exact h'.issued
  · simp only [Tables.pkgItems, Tables.rqstItems, hitems, hrows]
    exact h'.issues

end

/-- **Every reservation is honoured**: packages of different requests that wait for approval are all dispatched, in
whatever order. -/
theorem reservations_honoured (db : Database) (hs : Settled db.tables) (ctx : Ctx) (hrole : ctx.logisticsManager = true)
    (ds : List (ReliefPkg × Post)) (hn : (ds.map fun d => d.1.reliefrqstId).Nodup)
    (hw : ∀ d ∈ ds, Waiting db.tables d.1 d.2) : Along step Commits db (ds.map (Op.approve ctx)) := by
  induction ds generalizing db with
  | nil => trivial
  | cons d ds ih =>
    obtain ⟨hd, hn⟩ := List.nodup_cons.1 hn
    have hfirst := hw d List.mem_cons_self
    refine ⟨hfirst.commits hs hrole, ih _ (hs.approve hfirst hrole) hn fun e he => ?_⟩
    refine (hw e (List.mem_cons_of_mem _ he)).other hs hfirst hrole fun heq => hd ?_
    exact List.mem_map.2 ⟨e, he, heq⟩

namespace Site

/-- Two packages wait, of two and of five of the ten units. -/
def waiting : Database :=
  run step twoRequests [.preparePackage officer 1 .submitForApproval (post 3 .absent 2),
    .preparePackage officer 2 .submitForApproval (post 3 .absent 5)]

def waitingPkg (rqstId pkgId : Nat) : ReliefPkg :=
  (newPkg officer { rqst with reliefrqstId := rqstId } pkgId).submitted officer

end Site

/-- The second one first. -/
theorem reservations_honoured_site :
    Along step Commits Site.waiting
      ([(Site.waitingPkg 2 2, Site.post 4 (.num 2) 0), (Site.waitingPkg 1 1, Site.post 4 (.num 2) 0)].map
        (Op.approve Site.manager)) := by
  have hl : Ledger Site.waiting.tables :=
    ⟨by decide +kernel, by decide +kernel, by decide +kernel, by decide +kernel, by decide +kernel, by decide +kernel⟩
  refine reservations_honoured Site.waiting ⟨hl, by decide +kernel, by unfold Covered; decide +kernel⟩ Site.manager rfl
    [(Site.waitingPkg 2 2, Site.post 4 (.num 2) 0), (Site.waitingPkg 1 1, Site.post 4 (.num 2) 0)] (by decide)
    fun d hd => ?_
  simp only [List.mem_cons, List.not_mem_nil, or_false] at hd
  rcases hd with rfl | rfl
  · exact ⟨by decide +kernel, rfl,
      ⟨({ Site.rqst with reliefrqstId := 2 } : ReliefRqst).actedOn Site.officer, by decide +kernel, rfl, by decide⟩, rfl, .inl (by decide +kernel),
      .inl (by decide +kernel), by unfold IssuesMatch; decide +kernel⟩
  · exact ⟨by decide +kernel, rfl, ⟨Site.rqst.actedOn Site.officer, by decide +kernel, rfl, by decide⟩, rfl, .inl (by decide +kernel),
      .inl (by decide +kernel), by unfold IssuesMatch; decide +kernel⟩

end Dmis
