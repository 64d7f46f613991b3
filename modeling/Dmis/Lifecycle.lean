import Dmis.Operations

/-!
# The life of a request

What the operations do to a request and its package, without rows and stock: `HeaderStep` is the
abstract machine of one request (its status, marks and version numbers), and `route_header` shows
that every route takes exactly one request one such step and leaves all the others alone. A request
has at most one package (`UniquePkg`), since a package is only created when there is none.
-/

namespace Dmis

open Relational Keyed

/-- A request and its package. -/
structure Header where
  rqst : ReliefRqst
  pkg : Option ReliefPkg
  deriving DecidableEq, Repr

def Tables.header (t : Tables) (rqstId : Nat) : Option Header :=
  (t.reliefrqst.get? rqstId).map fun r => ⟨r, t.firstPkg rqstId⟩

/-- No request has two packages. -/
def UniquePkg (t : Tables) : Prop := (t.reliefpkg.rows.map ReliefPkg.reliefrqstId).Nodup

instance (t : Tables) : Decidable (UniquePkg t) := by unfold UniquePkg; infer_instance

/-! ## Packages of a request -/

section
variable {t t' : Tables} {rqstId x : Nat} {p q : ReliefPkg}

theorem packages_eq (hu : UniquePkg t) (rqstId : Nat) : t.packages rqstId = (t.firstPkg rqstId).toList := by
  unfold Tables.firstPkg Tables.packages Table.select
  rw [filter_of_nodup_map hu]
  cases t.reliefpkg.rows.find? fun p => p.reliefrqstId = rqstId <;> rfl

theorem firstPkg_eq_some (hu : UniquePkg t) :
    t.firstPkg rqstId = some p ↔ p ∈ t.reliefpkg.rows ∧ p.reliefrqstId = rqstId := by
  have hm : p ∈ t.packages rqstId ↔ p ∈ t.reliefpkg.rows ∧ p.reliefrqstId = rqstId := by
    simp [Tables.packages, Table.select]
  rw [← hm, packages_eq hu, Option.mem_toList]

theorem mem_of_firstPkg (h : t.firstPkg rqstId = some p) : p ∈ t.reliefpkg.rows ∧ p.reliefrqstId = rqstId := by
  have := List.mem_of_mem_head? (Option.mem_def.2 h)
  simpa [Tables.packages, Table.select] using this

theorem get?_of_firstPkg (h : t.firstPkg rqstId = some p) : t.reliefpkg.get? p.reliefpkgId = some p :=
  Table.get?_key (mem_of_firstPkg h).1

/-- Two tables whose packages are the same for every request have the same first packages. -/
theorem firstPkg_congr (hu : UniquePkg t) (hu' : UniquePkg t')
    (h : ∀ p, (p ∈ t'.reliefpkg.rows ∧ p.reliefrqstId = x) ↔ (p ∈ t.reliefpkg.rows ∧ p.reliefrqstId = x)) :
    t'.firstPkg x = t.firstPkg x := by
  refine Option.ext fun p => ?_
  rw [firstPkg_eq_some hu', firstPkg_eq_some hu, h]

theorem header_of_mem {r : ReliefRqst} (hr : r ∈ t.reliefrqst.rows) :
    t.header r.reliefrqstId = some ⟨r, t.firstPkg r.reliefrqstId⟩ := by
  have : t.reliefrqst.get? r.reliefrqstId = some r := Table.get?_key hr
  simp [Tables.header, this]

theorem header_eq_some {a : Header} : t.header rqstId = some a ↔
    t.reliefrqst.get? rqstId = some a.rqst ∧ t.firstPkg rqstId = a.pkg := by
  cases h : t.reliefrqst.get? rqstId with
  | none => simp [Tables.header, h]
  | some r => cases a; simp [Tables.header, h]

/-- A package of a consistent state is in its request's header. -/
theorem header_of_pkg (hu : UniquePkg t) (hc : t.Consistent) (hp : p ∈ t.reliefpkg.rows) :
    ∃ r, t.header p.reliefrqstId = some ⟨r, some p⟩ := by
  obtain ⟨r, hr, hk⟩ := List.mem_map.1 (hc.fkPkg p hp)
  have hk : r.reliefrqstId = p.reliefrqstId := hk
  refine ⟨r, ?_⟩
  rw [← hk, header_of_mem hr, hk, (firstPkg_eq_some hu).2 ⟨hp, rfl⟩]

theorem mem_of_header {r : ReliefRqst} (h : t.header rqstId = some ⟨r, some p⟩) :
    p ∈ t.reliefpkg.rows ∧ p.reliefrqstId = rqstId :=
  mem_of_firstPkg (header_eq_some.1 h).2

/-! ## Touching one request -/

/-- The operation changed the header of `rqstId` by `f`, and no other. -/
def Touches (rqstId : Nat) (f : Header → Header) (t t' : Tables) : Prop :=
  UniquePkg t' ∧ ∀ x, t'.header x = if x = rqstId then (t.header x).map f else t.header x

theorem Touches.of_eq (hu : UniquePkg t) (hr : t'.reliefrqst = t.reliefrqst) (hp : t'.reliefpkg = t.reliefpkg) :
    Touches rqstId id t t' := by
  refine ⟨by rw [UniquePkg, hp]; exact hu, fun x => ?_⟩
  have : t'.header x = t.header x := by
    simp only [Tables.header, Tables.firstPkg, Tables.packages, hr, hp]
  rw [this]; split <;> simp

theorem Touches.trans {f g : Header → Header} {t'' : Tables} (h : Touches rqstId f t t')
    (h' : Touches rqstId g t' t'') : Touches rqstId (g ∘ f) t t'' := by
  refine ⟨h'.1, fun x => ?_⟩
  rw [h'.2, h.2]
  split
  · rw [Option.map_map]
  · rfl

theorem touches_setRqst (hu : UniquePkg t) (r : ReliefRqst) :
    Touches r.reliefrqstId (fun h => { h with rqst := r }) t (t.setRqst r) := by
  refine ⟨hu, fun x => ?_⟩
  have hk : key r = r.reliefrqstId := rfl
  simp only [Tables.header, Tables.setRqst, Table.get?_set, hk]
  by_cases hx : x = r.reliefrqstId
  · subst hx
    rw [if_pos rfl, if_pos rfl, Option.map_map, Option.map_map]
    rfl
  · rw [if_neg (Ne.symm hx), if_neg hx]
    rfl

theorem touches_setPkg (hu : UniquePkg t) (hp : t.firstPkg rqstId = some p) (hid : q.reliefpkgId = p.reliefpkgId)
    (hr : q.reliefrqstId = p.reliefrqstId) :
    Touches rqstId (fun h => { h with pkg := some q }) t (t.setPkg q) := by
  obtain ⟨hmem, rfl⟩ := mem_of_firstPkg hp
  have hrows : (t.setPkg q).reliefpkg.rows =
      t.reliefpkg.rows.map fun y => if y.reliefpkgId = p.reliefpkgId then q else y := by
    simp only [Tables.setPkg, Table.set, ← hid]; rfl
  -- rows with `p`'s id are `p` itself
  have hown : ∀ y ∈ t.reliefpkg.rows, y.reliefpkgId = p.reliefpkgId → y = p := fun y hy e =>
    List.inj_on_of_nodup_map t.reliefpkg.nodup hy hmem e
  have hu' : UniquePkg (t.setPkg q) := by
    have : (t.setPkg q).reliefpkg.rows.map ReliefPkg.reliefrqstId = t.reliefpkg.rows.map ReliefPkg.reliefrqstId := by
      rw [hrows, List.map_map]
      refine List.map_congr_left fun y hy => ?_
      simp only [Function.comp]
      split
      · rw [hr, hown y hy ‹_›]
      · rfl
    rw [UniquePkg, this]; exact hu
  refine ⟨hu', fun x => ?_⟩
  have hmem' : ∀ y, y ∈ (t.setPkg q).reliefpkg.rows ↔
      (y = q ∨ (y ∈ t.reliefpkg.rows ∧ y.reliefpkgId ≠ p.reliefpkgId)) := fun y => by
    rw [hrows, List.mem_map]
    constructor
    · rintro ⟨z, hz, rfl⟩
      by_cases hz' : z.reliefpkgId = p.reliefpkgId <;> simp [hz, hz']
    · rintro (rfl | ⟨hy, hy'⟩)
      · exact ⟨p, hmem, by simp⟩
      · exact ⟨y, hy, by simp [hy']⟩
  split
  · subst x
    have hq : (t.setPkg q).firstPkg p.reliefrqstId = some q := (firstPkg_eq_some hu').2 ⟨(hmem' q).2 (.inl rfl), hr⟩
    simp only [Tables.header, hq, Option.map_map]
    rfl
  · rename_i hx
    have : (t.setPkg q).firstPkg x = t.firstPkg x := by
      refine firstPkg_congr hu hu' fun y => ?_
      rw [hmem']
      constructor
      · rintro ⟨rfl | ⟨hy, _⟩, hyx⟩
        · exact absurd (hyx.symm.trans hr) hx
        · exact ⟨hy, hyx⟩
      · rintro ⟨hy, hyx⟩
        refine ⟨.inr ⟨hy, fun e => hx ?_⟩, hyx⟩
        rw [← hyx, hown y hy e]
    simp only [Tables.header, this]
    rfl

/-- `_process_allocations` finds the request's package or makes it the first one. -/
theorem touches_getOrCreatePkg {ctx : Ctx} {r : ReliefRqst} (hu : UniquePkg t)
    (h : getOrCreatePkg ctx r t = .ok (p, t')) :
    t'.firstPkg r.reliefrqstId = some p ∧
    p = (t.firstPkg r.reliefrqstId).getD (newPkg ctx r t.nextReliefpkgId) ∧
    Touches r.reliefrqstId (fun h => { h with pkg := some p }) t t' := by
  refine ⟨firstPkg_getOrCreatePkg h, ?_⟩
  rcases getOrCreatePkg_cases h with ⟨hp, rfl⟩ | ⟨hp, rfl, pkgs, hi, rfl⟩
  · rw [hp]
    refine ⟨rfl, hu, fun x => ?_⟩
    split
    · subst x
      simp only [Tables.header, hp, Option.map_map]
      rfl
    · rfl
  · obtain ⟨-, hrows⟩ := Table.insert_eq_some.1 hi
    have hnone : ∀ y ∈ t.reliefpkg.rows, y.reliefrqstId ≠ r.reliefrqstId := fun y hy e => by
      rw [(firstPkg_eq_some hu).2 ⟨hy, e⟩] at hp
      cases hp
    have hu' : UniquePkg { t with reliefpkg := pkgs, nextReliefpkgId := t.nextReliefpkgId + 1 } := by
      simp only [UniquePkg, hrows, List.map_append, List.map_cons, List.map_nil]
      refine List.nodup_append.2 ⟨hu, by simp, ?_⟩
      rintro a ha b hb rfl
      obtain ⟨y, hy, rfl⟩ := List.mem_map.1 ha
      simp only [List.mem_singleton] at hb
      exact hnone y hy hb
    have hfirst : ∀ x, ({ t with reliefpkg := pkgs, nextReliefpkgId := t.nextReliefpkgId + 1 } : Tables).firstPkg x =
        if x = r.reliefrqstId then some (newPkg ctx r t.nextReliefpkgId) else t.firstPkg x := fun x => by
      split
      · subst x
        exact (firstPkg_eq_some hu').2 ⟨by simp [hrows], rfl⟩
      · rename_i hx
        refine firstPkg_congr hu hu' fun y => ?_
        simp only [hrows, List.mem_append, List.mem_singleton]
        constructor
        · rintro ⟨hy | rfl, hyx⟩
          · exact ⟨hy, hyx⟩
          · exact absurd hyx.symm hx
        · rintro ⟨hy, hyx⟩
          exact ⟨.inl hy, hyx⟩
    refine ⟨by rw [hp]; rfl, hu', fun x => ?_⟩
    simp only [Tables.header, hfirst]
    split
    · rw [Option.map_map]; rfl
    · rfl

theorem touches_deletePkg (hu : UniquePkg t) (hp : t.reliefpkg.get? p.reliefpkgId = some p)
    (hr : t'.reliefrqst = t.reliefrqst)
    (hd : t'.reliefpkg = t.reliefpkg.deleteWhere fun q => q.reliefpkgId = p.reliefpkgId) :
    Touches p.reliefrqstId (fun h => { h with pkg := none }) t t' := by
  have hmem := Table.mem_of_get? hp
  have hown : ∀ y ∈ t.reliefpkg.rows, y.reliefpkgId = p.reliefpkgId → y = p := fun y hy e =>
    List.inj_on_of_nodup_map t.reliefpkg.nodup hy hmem e
  have hmem' : ∀ y, y ∈ t'.reliefpkg.rows ↔ y ∈ t.reliefpkg.rows ∧ y ≠ p := fun y => by
    rw [hd]
    simp only [Table.deleteWhere, List.mem_filter, Bool.not_eq_true', decide_eq_false_iff_not]
    exact and_congr_right fun hy => not_congr ⟨hown y hy, fun e => e ▸ rfl⟩
  have hu' : UniquePkg t' := by
    rw [UniquePkg, hd]; exact hu.sublist (List.filter_sublist.map _)
  refine ⟨hu', fun x => ?_⟩
  have hfirst : t'.firstPkg x = if x = p.reliefrqstId then none else t.firstPkg x := by
    refine Option.ext fun y => ?_
    rw [firstPkg_eq_some hu', hmem']
    split
    · subst x
      simp only [reduceCtorEq, iff_false, not_and]
      rintro ⟨hy, hne⟩ he
      exact hne (List.inj_on_of_nodup_map hu hy hmem he)
    · rename_i hx
      rw [firstPkg_eq_some hu]
      constructor
      · rintro ⟨⟨hy, _⟩, hyx⟩; exact ⟨hy, hyx⟩
      · rintro ⟨hy, rfl⟩; exact ⟨⟨hy, fun e => hx (e ▸ rfl)⟩, rfl⟩
  simp only [Tables.header, hfirst, hr]
  split
  · rw [Option.map_map]; rfl
  · rfl

end

/-! ## One step of a request -/

/-- The posted versions are those of the page's request and package. -/
structure Fresh (post : Post) (r : ReliefRqst) (p : ReliefPkg) : Prop where
  rqst : post.rqstVersion = .num r.versionNbr
  pkg : post.pkgVersion = .num p.versionNbr

/-- What the prepare page checks before any of its actions. -/
structure PrepareOk (ctx : Ctx) (post : Post) (r : ReliefRqst) (p : Option ReliefPkg) : Prop where
  role : ctx.logisticsOfficer = true ∨ ctx.logisticsManager = true
  packable : r.statusCode = .submitted ∨ r.statusCode = .partFilled
  rqst : post.rqstVersion = .num r.versionNbr
  /-- The package version is compared only when it was posted. -/
  pkg : ∀ q ∈ p, post.pkgVersion.given = true → post.pkgVersion = .num q.versionNbr

/-- What the approve and review pages check. -/
structure ApproveOk (ctx : Ctx) (post : Post) (r : ReliefRqst) (p : ReliefPkg) : Prop where
  role : ctx.logisticsManager = true
  pending : p.statusCode = .pending
  undispatched : p.dispatchDtime = none
  fresh : Fresh post r p

/-- The operations on one request, as they change its header. -/
inductive HeaderStep : Op → Nat → Option Header → Option Header → Prop where
  | createDraftRequest {ctx agency urgency event notes} {r : ReliefRqst} (status : r.statusCode = .draft)
      (review : r.reviewById = none) (action : r.actionById = none) :
      HeaderStep (.createDraftRequest ctx agency urgency event notes) r.reliefrqstId none (some ⟨r, none⟩)
  | editItems {ctx rid post r p} (status : r.statusCode = .draft) :
      HeaderStep (.editItems ctx rid post) rid (some ⟨r, p⟩) (some ⟨r, p⟩)
  | deleteItem {ctx rid item r p} (status : r.statusCode = .draft) :
      HeaderStep (.deleteItem ctx rid item) rid (some ⟨r, p⟩) (some ⟨r, p⟩)
  | submitRequest {ctx rid v r p} (status : r.statusCode = .draft) :
      HeaderStep (.submitRequest ctx rid v) rid (some ⟨r, p⟩)
        (some ⟨{ r with statusCode := .awaitingApproval, versionNbr := r.versionNbr + 1 }, p⟩)
  | decide {ctx rid d reason r p reviewer} (status : r.statusCode = .awaitingApproval)
      (review : r.reviewById = none) (decision : d ≠ .other) :
      HeaderStep (.submitEligibilityDecision ctx rid d reason) rid (some ⟨r, p⟩)
        (some ⟨r.decided d reason reviewer, p⟩)
  | saveDraft {ctx rid post r p id} (ok : PrepareOk ctx post r p) :
      HeaderStep (.preparePackage ctx rid .saveDraft post) rid (some ⟨r, p⟩)
        (some ⟨r.actedOn ctx, some (p.getD (newPkg ctx r id)).unmarked⟩)
  | submitForApproval {ctx rid post r p id} (ok : PrepareOk ctx post r p) (officer : ctx.logisticsOfficer = true)
      (creator : ∀ q ∈ p, q.statusCode = .pending → q.createById = ctx.userName) :
      HeaderStep (.preparePackage ctx rid .submitForApproval post) rid (some ⟨r, p⟩)
        (some ⟨r.actedOn ctx, some ((p.getD (newPkg ctx r id)).submitted ctx)⟩)
  | sendForDispatch {ctx rid post r p id} (ok : PrepareOk ctx post r p) (manager : ctx.logisticsManager = true) :
      HeaderStep (.preparePackage ctx rid .sendForDispatch post) rid (some ⟨r, p⟩)
        (some ⟨r.actedOn ctx, some ((p.getD (newPkg ctx r id)).dispatch ctx)⟩)
  | saveDraftApproval {ctx rid post r p} (ok : ApproveOk ctx post r p) :
      HeaderStep (.approvePackage ctx rid .saveDraft post) rid (some ⟨r, some p⟩)
        (some ⟨r, some (p.redrafted ctx)⟩)
  | approveAndDispatch {ctx rid post r p} (ok : ApproveOk ctx post r p) :
      HeaderStep (.approvePackage ctx rid .approveAndDispatch post) rid (some ⟨r, some p⟩)
        (some ⟨r.actedOn ctx, some (p.dispatch ctx)⟩)
  | reviewApproveAndDispatch {ctx rid post r p} (ok : ApproveOk ctx post r p) :
      HeaderStep (.reviewApproval ctx rid .approveAndDispatch post) rid (some ⟨r, some p⟩)
        (some ⟨r.actedOn ctx, some (p.dispatch ctx)⟩)
  | reviewReject {ctx rid post r p} (ok : ApproveOk ctx post r p) :
      HeaderStep (.reviewApproval ctx rid .reject post) rid (some ⟨r, some p⟩)
        (some ⟨{ r with actionById := some ctx.userName, versionNbr := r.versionNbr + 1 },
          some (p.rejected ctx)⟩)
  | submitForDispatch {ctx rid version plan r p} (role : ctx.logisticsManager = true)
      (status : p.statusCode = .pending ∨ p.statusCode = .verified) (fresh : version = .num p.versionNbr) :
      HeaderStep (.submitForDispatch ctx p.reliefpkgId version plan) rid (some ⟨r, some p⟩)
        (some ⟨r.actedOn ctx, some (p.dispatch ctx)⟩)
  | cancelPackage {ctx rid r p} (role : ctx.logisticsManager = true)
      (status : p.statusCode = .pending ∨ p.statusCode = .dispatched) :
      HeaderStep (.cancelPackage ctx p.reliefpkgId) rid (some ⟨r, some p⟩) (some ⟨r, none⟩)
  | cancelPreparation {rid h} : HeaderStep (.cancelPreparation rid) rid h h
  | markHandover {ctx rid r p} (role : ctx.inventoryClerk = true) (status : p.statusCode = .dispatched)
      (received : p.receivedDtime = none) :
      HeaderStep (.markHandover ctx p.reliefpkgId) rid (some ⟨r, some p⟩) (some ⟨r, some (p.handedOver ctx)⟩)

/-- One request took a step, the others did not. -/
def Simulates (op : Op) (t t' : Tables) : Prop :=
  UniquePkg t' ∧ ∃ rqstId, HeaderStep op rqstId (t.header rqstId) (t'.header rqstId) ∧
    ∀ x, x ≠ rqstId → t'.header x = t.header x

/-! ## The routes simulate the steps -/

section
variable {t t' : Tables} {ctx : Ctx} {rqstId : Nat} {r : ReliefRqst} {p : ReliefPkg} {post : Post}

theorem Touches.simulates {op : Op} {f : Header → Header} (h : Touches rqstId f t t')
    (hr : t.reliefrqst.get? rqstId = some r)
    (hstep : HeaderStep op rqstId (some ⟨r, t.firstPkg rqstId⟩) (some (f ⟨r, t.firstPkg rqstId⟩))) :
    Simulates op t t' := by
  have hh : t.header rqstId = some ⟨r, t.firstPkg rqstId⟩ := by simp [Tables.header, hr]
  refine ⟨h.1, rqstId, ?_, fun x hx => by rw [h.2, if_neg hx]⟩
  rw [h.2 rqstId, if_pos rfl, hh]
  exact hstep

theorem processAllocations_touches {form : Form} {vc : Bool} {new : List Alloc} {old : Allocations}
    (hu : UniquePkg t) (h : processAllocations ctx form vc r t = .ok (t', new, old)) :
    ∃ p, p = (t.firstPkg r.reliefrqstId).getD (newPkg ctx r t.nextReliefpkgId) ∧
      t'.firstPkg r.reliefrqstId = some p ∧ t'.reliefrqst = t.reliefrqst ∧
      Touches r.reliefrqstId (fun h => { h with pkg := some p }) t t' := by
  obtain ⟨p, t₁, plans, hp⟩ := processAllocations_ok h
  obtain ⟨hfirst, hget, htouch⟩ := touches_getOrCreatePkg hu hp.pkg
  have hr1 : t₁.reliefrqst = t.reliefrqst := by rw [getOrCreatePkg_frame hp.pkg]
  refine ⟨p, hget, ?_, hp.reliefrqst_eq, htouch.trans (.of_eq htouch.1 (by rw [hp.reliefrqst_eq, hr1]) hp.reliefpkg_eq)⟩
  rw [← hfirst]
  simp only [Tables.firstPkg, Tables.packages, hp.reliefpkg_eq]

theorem reserveInventory_touches {new : List Alloc} {old : Allocations} (hu : UniquePkg t)
    (h : reserveInventory new old t = .ok t') (rqstId : Nat) : Touches rqstId id t t' := by
  have hf := (reserveInventory_ok h).1
  exact .of_eq hu (by rw [hf]) (by rw [hf])

theorem commitInventory_touches {x : Nat} (hu : UniquePkg t) (h : commitInventory x t = .ok t')
    (rqstId : Nat) : Touches rqstId id t t' := by
  obtain ⟨_, _, hf, _⟩ := commitInventory_ok h
  exact .of_eq hu (by rw [hf]) (by rw [hf])

theorem validatePkgVersion_ok {v : VersionField} {p : Option ReliefPkg} {u : Unit}
    (h : validatePkgVersion v p = .ok u) : ∀ q ∈ p, v.given = true → v = .num q.versionNbr := by
  rintro q rfl hg
  simp only [validatePkgVersion, if_pos hg] at h
  exact validateVersionNbr_ok.1 h

theorem prepareGate_ok (h : prepareGate ctx rqstId t = .ok r) :
    (ctx.logisticsOfficer = true ∨ ctx.logisticsManager = true) ∧ t.reliefrqst.get? rqstId = some r ∧
    (r.statusCode = .submitted ∨ r.statusCode = .partFilled) ∧ r.reliefrqstId = rqstId := by
  simp only [prepareGate, bind_ok, check_ok, require_ok, pure_ok, exists_const] at h
  obtain ⟨hrole, r', hr, hs, rfl⟩ := h
  exact ⟨hrole, hr, hs, Table.key_of_get? hr⟩

theorem approveGate_ok (hu : UniquePkg t) (h : approveGate ctx rqstId t = .ok (r, p)) :
    ctx.logisticsManager = true ∧ t.reliefrqst.get? rqstId = some r ∧ r.reliefrqstId = rqstId ∧
    t.firstPkg rqstId = some p ∧ p.statusCode = .pending ∧ p.dispatchDtime = none := by
  simp only [approveGate, bind_ok, check_ok, require_ok, pure_ok, exists_const] at h
  obtain ⟨hrole, r', hr, p', hp, hd, he⟩ := h
  cases he
  refine ⟨hrole, hr, Table.key_of_get? hr, ?_, by simpa using List.find?_some hp, hd⟩
  have hm := List.mem_of_find?_eq_some hp
  rwa [packages_eq hu, Option.mem_toList] at hm

theorem saveDraft_simulates (hu : UniquePkg t) (hg : prepareGate ctx rqstId t = .ok r)
    (h : saveDraft ctx r post t = .ok t') : Simulates (.preparePackage ctx rqstId .saveDraft post) t t' := by
  obtain ⟨hrole, hr, hs, rfl⟩ := prepareGate_ok hg
  simp only [saveDraft, saveDraftAllocations, bind_ok, pure_ok] at h
  obtain ⟨⟨t₂, new, old⟩, ⟨_, hv, _, hpv, ⟨t₁, new', old'⟩, hproc, he⟩, hres⟩ := h
  cases he
  obtain ⟨p, hp, hfirst, -, htouch⟩ := processAllocations_touches hu hproc
  simp only [hfirst] at hres
  have hset : (p.unmarked).reliefpkgId = p.reliefpkgId ∧ p.unmarked.reliefrqstId = p.reliefrqstId := by
    unfold ReliefPkg.unmarked; split <;> exact ⟨rfl, rfl⟩
  have h2 := touches_setPkg htouch.1 hfirst hset.1 hset.2
  have h3 := touches_setRqst h2.1 (r.actedOn ctx)
  have h4 := reserveInventory_touches h3.1 hres r.reliefrqstId
  subst hp
  exact (((htouch.trans h2).trans h3).trans h4).simulates hr
    (.saveDraft ⟨hrole, hs, validateVersionNbr_ok.1 hv, validatePkgVersion_ok hpv⟩)

theorem submitForApproval_simulates (hu : UniquePkg t) (hg : prepareGate ctx rqstId t = .ok r)
    (h : submitForApproval ctx r post t = .ok t') :
    Simulates (.preparePackage ctx rqstId .submitForApproval post) t t' := by
  obtain ⟨hrole, hr, hs, rfl⟩ := prepareGate_ok hg
  simp only [submitForApproval, submitForApprovalAllocations, bind_ok, pure_ok, check_ok, require_ok,
    exists_const] at h
  obtain ⟨⟨t₂, new, old⟩, ⟨hlo, _, hv, _, hpv, hcr, ⟨t₁, new', old'⟩, hproc, p', hp', -, he⟩, hres⟩ := h
  cases he
  obtain ⟨p, hp, hfirst, -, htouch⟩ := processAllocations_touches hu hproc
  simp only [hfirst, Option.some.injEq] at hp'
  subst hp'
  have h2 := touches_setPkg (q := p.submitted ctx) htouch.1 hfirst rfl rfl
  have h3 := touches_setRqst h2.1 (r.actedOn ctx)
  have h4 := reserveInventory_touches h3.1 hres r.reliefrqstId
  subst hp
  exact (((htouch.trans h2).trans h3).trans h4).simulates hr
    (.submitForApproval ⟨hrole, hs, validateVersionNbr_ok.1 hv, validatePkgVersion_ok hpv⟩ hlo hcr)

theorem sendForDispatch_simulates (hu : UniquePkg t) (hg : prepareGate ctx rqstId t = .ok r)
    (h : sendForDispatch ctx r post t = .ok t') :
    Simulates (.preparePackage ctx rqstId .sendForDispatch post) t t' := by
  obtain ⟨hrole, hr, hs, rfl⟩ := prepareGate_ok hg
  simp only [sendForDispatch, bind_ok, pure_ok, check_ok, require_ok, exists_const] at h
  obtain ⟨hlm, _, hv, _, hpv, ⟨t₁, new', old'⟩, hproc, p', hp', t₂, hcommit, rfl⟩ := h
  obtain ⟨p, hp, hfirst, -, htouch⟩ := processAllocations_touches hu hproc
  simp only [hfirst, Option.some.injEq] at hp'
  subst hp'
  have h1 : Touches r.reliefrqstId id t₁ t₁.readBack := .of_eq htouch.1 rfl rfl
  have h2 := touches_setPkg (q := p.dispatch ctx) h1.1 (show _ = some p from hfirst) rfl rfl
  have h3 := commitInventory_touches h2.1 hcommit r.reliefrqstId
  have h4 := touches_setRqst h3.1 (r.actedOn ctx)
  subst hp
  exact ((((htouch.trans h1).trans h2).trans h3).trans h4).simulates hr
    (.sendForDispatch ⟨hrole, hs, validateVersionNbr_ok.1 hv, validatePkgVersion_ok hpv⟩ hlm)

theorem saveDraftApproval_simulates (hu : UniquePkg t) (hg : approveGate ctx rqstId t = .ok (r, p))
    (h : saveDraftApproval ctx r p post t = .ok t') :
    Simulates (.approvePackage ctx rqstId .saveDraft post) t t' := by
  obtain ⟨hrole, hr, rfl, hfirst, hpend, hd⟩ := approveGate_ok hu hg
  simp only [saveDraftApproval, saveDraftApprovalAllocations, bind_ok, pure_ok] at h
  obtain ⟨⟨t₂, new, old⟩, ⟨_, hv, _, hpv, ⟨t₁, new', old'⟩, hproc, he⟩, hres⟩ := h
  cases he
  obtain ⟨p', hp, hfirst', -, htouch⟩ := processAllocations_touches hu hproc
  rw [hfirst, Option.getD_some] at hp
  subst hp
  have h2 := touches_setPkg (q := p'.redrafted ctx) htouch.1 hfirst' rfl rfl
  have h3 := reserveInventory_touches h2.1 hres r.reliefrqstId
  refine ((htouch.trans h2).trans h3).simulates hr ?_
  rw [hfirst]
  exact .saveDraftApproval ⟨hrole, hpend, hd, validateVersionNbr_ok.1 hv, validateVersionNbr_ok.1 hpv⟩

theorem approveAndDispatch_simulates (hu : UniquePkg t) (hg : approveGate ctx rqstId t = .ok (r, p))
    (h : approveAndDispatch ctx r p post t = .ok t') :
    Simulates (.approvePackage ctx rqstId .approveAndDispatch post) t t' := by
  obtain ⟨hrole, hr, rfl, hfirst, hpend, hd⟩ := approveGate_ok hu hg
  simp only [approveAndDispatch, bind_ok, pure_ok, check_ok, exists_const] at h
  obtain ⟨_, hv, _, hpv, ⟨t₁, new, old⟩, hproc, _, -, -, t₂, hcommit, rfl⟩ := h
  obtain ⟨p', hp, hfirst', -, htouch⟩ := processAllocations_touches hu hproc
  rw [hfirst, Option.getD_some] at hp
  subst hp
  have h1 : Touches r.reliefrqstId id t₁
      { t₁.readBack with reliefrqstItem := issueAllocated r new t₁.reliefrqstItem } := .of_eq htouch.1 rfl rfl
  have h2 := touches_setPkg (q := p'.dispatch ctx) h1.1 (show _ = some p' from hfirst') rfl rfl
  have h3 := commitInventory_touches h2.1 hcommit r.reliefrqstId
  have h4 := touches_setRqst h3.1 (r.actedOn ctx)
  refine ((((htouch.trans h1).trans h2).trans h3).trans h4).simulates hr ?_
  rw [hfirst]
  exact .approveAndDispatch ⟨hrole, hpend, hd, validateVersionNbr_ok.1 hv, validateVersionNbr_ok.1 hpv⟩

theorem reviewApproveAndDispatch_simulates (hu : UniquePkg t) (hg : approveGate ctx rqstId t = .ok (r, p))
    (h : reviewApproveAndDispatch ctx r p post t = .ok t') :
    Simulates (.reviewApproval ctx rqstId .approveAndDispatch post) t t' := by
  obtain ⟨hrole, hr, rfl, hfirst, hpend, hd⟩ := approveGate_ok hu hg
  simp only [reviewApproveAndDispatch, bind_ok, pure_ok, check_ok, exists_const] at h
  obtain ⟨_, hv, _, hpv, _, -, -, t₂, hcommit, rfl⟩ := h
  have h2 := touches_setPkg (q := p.dispatch ctx) hu hfirst rfl rfl
  have h3 := commitInventory_touches h2.1 hcommit r.reliefrqstId
  have h4 := touches_setRqst h3.1 (r.actedOn ctx)
  refine ((h2.trans h3).trans h4).simulates hr ?_
  rw [hfirst]
  exact .reviewApproveAndDispatch ⟨hrole, hpend, hd, validateVersionNbr_ok.1 hv, validateVersionNbr_ok.1 hpv⟩

theorem reviewReject_simulates (hu : UniquePkg t) (hg : approveGate ctx rqstId t = .ok (r, p))
    (h : reviewReject ctx r p post t = .ok t') : Simulates (.reviewApproval ctx rqstId .reject post) t t' := by
  obtain ⟨hrole, hr, rfl, hfirst, hpend, hd⟩ := approveGate_ok hu hg
  simp only [reviewReject, bind_ok, pure_ok] at h
  obtain ⟨_, hv, _, hpv, rfl⟩ := h
  have h2 := touches_setPkg (q := p.rejected ctx) hu hfirst rfl rfl
  have h3 := touches_setRqst h2.1 { r with actionById := some ctx.userName, versionNbr := r.versionNbr + 1 }
  refine (h2.trans h3).simulates hr ?_
  rw [hfirst]
  exact .reviewReject ⟨hrole, hpend, hd, validateVersionNbr_ok.1 hv, validateVersionNbr_ok.1 hpv⟩

theorem undoLoReservations_frame {lo : List ReliefPkgItem} (h : undoLoReservations lo t = .ok t') :
    t' = { t with itembatch := t'.itembatch, inventory := t'.inventory } := by
  simp only [undoLoReservations, bind_ok, pure_ok] at h
  obtain ⟨_, _, _, _, rfl⟩ := h
  rfl

theorem depleteUsableStock_frame {plan : List PlanEntry} (h : depleteUsableStock plan t = .ok t') :
    t' = { t with itembatch := t'.itembatch, inventory := t'.inventory } := by
  simp only [depleteUsableStock, bind_ok, pure_ok] at h
  obtain ⟨_, _, _, _, rfl⟩ := h
  rfl

theorem firstPkg_of_get? (hu : UniquePkg t) {pkgId : Nat} (hp : t.reliefpkg.get? pkgId = some p) :
    t.firstPkg p.reliefrqstId = some p ∧ p.reliefpkgId = pkgId :=
  ⟨(firstPkg_eq_some hu).2 ⟨Table.mem_of_get? hp, rfl⟩, Table.key_of_get? hp⟩

theorem VersionField.toInt_ok {v : VersionField} {n : ℤ} : v.toInt = .ok n ↔ v = .num n := by
  cases v <;> simp [VersionField.toInt]

theorem submitForDispatch_simulates {pkgId : Nat} {version : VersionField} {field : PlanField}
    (hu : UniquePkg t) (h : submitForDispatch ctx pkgId version field t = .ok t') :
    Simulates (.submitForDispatch ctx pkgId version field) t t' := by
  simp only [submitForDispatch, workflowC, bind_ok, pure_ok, check_ok, require_ok, exists_const] at h
  obtain ⟨hlm, p, hp, n, hn, plan, -, -, p', hp', hv, -, hs, r, hr, t₁, hundo, t₂, hdep, rfl⟩ := h
  rw [hp, Option.some.injEq] at hp'
  subst hp'
  obtain ⟨hfirst, rfl⟩ := firstPkg_of_get? hu hp
  have hrid : r.reliefrqstId = p.reliefrqstId := Table.key_of_get? hr
  have hf1 := undoLoReservations_frame hundo
  have hf2 := depleteUsableStock_frame hdep
  have hrq1 : t₁.reliefrqst = t.reliefrqst := by rw [hf1]
  have hpk1 : t₁.reliefpkg = t.reliefpkg := by rw [hf1]
  have hrq : t₂.reliefrqst = t.reliefrqst := by rw [hf2]; exact hrq1
  have hpk : t₂.reliefpkg = t.reliefpkg := by rw [hf2]; exact hpk1
  have h1 : Touches p.reliefrqstId id t t₂ := .of_eq hu hrq hpk
  have hfirst2 : t₂.firstPkg p.reliefrqstId = some p := by
    rw [← hfirst]
    simp only [Tables.firstPkg, Tables.packages, hpk]
  have h2 := touches_setPkg (q := p.dispatch ctx) h1.1 hfirst2 rfl rfl
  have h3 : Touches p.reliefrqstId id (t₂.setPkg (p.dispatch ctx))
      { t₂.setPkg (p.dispatch ctx) with reliefrqstItem := issueDispatched r plan t₂.reliefrqstItem } :=
    .of_eq h2.1 rfl rfl
  have h4 := touches_setRqst h3.1 (r.actedOn ctx)
  rw [show (r.actedOn ctx).reliefrqstId = p.reliefrqstId from hrid] at h4
  refine (((h1.trans h2).trans h3).trans h4).simulates hr ?_
  rw [hfirst]
  exact .submitForDispatch hlm hs (by rw [VersionField.toInt_ok.1 hn, hv])

theorem cancelPackage_simulates {pkgId : Nat} (hu : UniquePkg t) (hc : t.Consistent)
    (h : cancelPackage ctx pkgId t = .ok t') : Simulates (.cancelPackage ctx pkgId) t t' := by
  simp only [cancelPackage, bind_ok, check_ok, exists_const] at h
  obtain ⟨hlm, hcancel⟩ := h
  obtain ⟨p, hp, hs, hf, -⟩ := cancelReliefPackage_ok hcancel
  obtain ⟨hfirst, rfl⟩ := firstPkg_of_get? hu hp
  obtain ⟨r, hr⟩ := Option.ne_none_iff_exists'.1 fun hn =>
    Table.get?_eq_none.1 hn (hc.fkPkg p (Table.mem_of_get? hp))
  refine (touches_deletePkg hu hp (by rw [hf]) (by rw [hf])).simulates hr ?_
  rw [hfirst]
  exact .cancelPackage hlm hs

theorem cancelPreparation_simulates (hu : UniquePkg t) (h : cancelPreparation rqstId t = .ok t') :
    Simulates (.cancelPreparation rqstId) t t' := by
  have hh : Touches rqstId id t t' := by
    simp only [cancelPreparation, releaseAllReservations, bind_ok, pure_ok] at h
    obtain ⟨_, _, _, _, rfl⟩ := h
    refine .of_eq hu ?_ ?_ <;> (split <;> rfl)
  refine ⟨hh.1, rqstId, ?_, fun x hx => by rw [hh.2, if_neg hx]⟩
  rw [hh.2, if_pos rfl, Option.map_id]
  exact .cancelPreparation

theorem markHandover_simulates {pkgId : Nat} (hu : UniquePkg t) (hc : t.Consistent)
    (h : markHandover ctx pkgId t = .ok t') : Simulates (.markHandover ctx pkgId) t t' := by
  simp only [markHandover, bind_ok, check_ok, require_ok, pure_ok, exists_const] at h
  obtain ⟨hrole, -, p, hp, hs, hrec, -, rfl⟩ := h
  obtain ⟨hfirst, rfl⟩ := firstPkg_of_get? hu hp
  obtain ⟨r, hr⟩ := Option.ne_none_iff_exists'.1 fun hn =>
    Table.get?_eq_none.1 hn (hc.fkPkg p (Table.mem_of_get? hp))
  refine (touches_setPkg (q := p.handedOver ctx) hu hfirst rfl rfl).simulates hr ?_
  rw [hfirst]
  exact .markHandover hrole hs hrec

theorem createDraftRequest_simulates {agency : Nat} {urgency : Urgency} {event : Option Nat}
    {notes : Option String} (hu : UniquePkg t) (hc : t.Consistent)
    (h : createDraftRequest ctx agency urgency event notes t = .ok t') :
    Simulates (.createDraftRequest ctx agency urgency event notes) t t' := by
  simp only [createDraftRequest, bind_ok, check_ok, require_ok, pure_ok, exists_const] at h
  obtain ⟨-, -, user, -, rows, hi, rfl⟩ := h
  have hk := (Table.insert_eq_some.1 hi).1
  have hnone : t.header t.nextReliefrqstId = none := by
    rw [Tables.header, Option.map_eq_none_iff, Table.get?_eq_none]; exact hk
  have hfirst : t.firstPkg t.nextReliefrqstId = none := by
    refine Option.eq_none_iff_forall_not_mem.2 fun p hp => hk ?_
    obtain ⟨hm, hr⟩ := mem_of_firstPkg hp
    exact hr ▸ hc.fkPkg p hm
  have hget : ∀ x, rows.get? x = if t.nextReliefrqstId = x then
      some (newDraft t.nextReliefrqstId agency urgency event notes user) else t.reliefrqst.get? x :=
    Table.get?_insert hi
  refine ⟨hu, t.nextReliefrqstId, ?_, fun x hx => ?_⟩
  · have hnew : Tables.header { t with reliefrqst := rows, nextReliefrqstId := t.nextReliefrqstId + 1 }
        t.nextReliefrqstId = some ⟨newDraft t.nextReliefrqstId agency urgency event notes user, none⟩ := by
      simp only [Tables.header, hget, if_true, Option.map_some, Option.some.injEq, Header.mk.injEq, true_and]
      exact hfirst
    rw [hnone, hnew]
    exact .createDraftRequest (r := newDraft t.nextReliefrqstId agency urgency event notes user) rfl rfl rfl
  · simp only [Tables.header, hget]
    rw [if_neg (Ne.symm hx)]
    rfl

/-- An operation that checks for a draft and then edits its items only. -/
theorem simulates_of_items {op : Op} (hu : UniquePkg t) (hr : t.reliefrqst.get? rqstId = some r)
    (hrq : t'.reliefrqst = t.reliefrqst) (hpk : t'.reliefpkg = t.reliefpkg)
    (hstep : HeaderStep op rqstId (some ⟨r, t.firstPkg rqstId⟩) (some ⟨r, t.firstPkg rqstId⟩)) :
    Simulates op t t' :=
  (Touches.of_eq hu hrq hpk).simulates hr hstep

theorem editItems_simulates {item : ItemPost} (hu : UniquePkg t) (h : editItems ctx rqstId item t = .ok t') :
    Simulates (.editItems ctx rqstId item) t t' := by
  simp only [editItems, addOrUpdateRequestItem, bind_ok, check_ok, require_ok, exists_const] at h
  obtain ⟨r, hr, -, hd, -, qty, -, by', -, item, -, -, -, -, -, -, -, h⟩ := h
  refine simulates_of_items hu hr ?_ ?_ (.editItems hd) <;>
  · split at h
    · simp only [pure_ok] at h
      subst h; rfl
    · simp only [bind_ok, require_ok, pure_ok] at h
      obtain ⟨_, _, rfl⟩ := h; rfl

theorem deleteItem_simulates {itemId : Nat} (hu : UniquePkg t) (h : deleteItem ctx rqstId itemId t = .ok t') :
    Simulates (.deleteItem ctx rqstId itemId) t t' := by
  simp only [deleteItem, bind_ok, check_ok, require_ok, pure_ok, exists_const] at h
  obtain ⟨r, hr, -, hd, _, -, rfl⟩ := h
  exact simulates_of_items hu hr rfl rfl (.deleteItem hd)

theorem submitRequest_simulates {v : VersionField} (hu : UniquePkg t) (h : submitRequest ctx rqstId v t = .ok t') :
    Simulates (.submitRequest ctx rqstId v) t t' := by
  simp only [submitRequest, bind_ok, check_ok, require_ok, pure_ok, exists_const] at h
  obtain ⟨r, hr, -, _, -, hd, -, -, rfl⟩ := h
  have hk : r.reliefrqstId = rqstId := Table.key_of_get? hr
  subst hk
  exact (touches_setRqst hu { r with statusCode := .awaitingApproval, versionNbr := r.versionNbr + 1 }).simulates hr
    (.submitRequest hd)

theorem submitEligibilityDecision_simulates {d : Decision} {reason : String} (hu : UniquePkg t)
    (h : submitEligibilityDecision ctx rqstId d reason t = .ok t') :
    Simulates (.submitEligibilityDecision ctx rqstId d reason) t t' := by
  simp only [submitEligibilityDecision, bind_ok, check_ok, require_ok, pure_ok, exists_const] at h
  obtain ⟨-, hd, -, r, hr, hs, hrev, reviewer, -, rfl⟩ := h
  have hk : r.reliefrqstId = rqstId := Table.key_of_get? hr
  subst hk
  have hid : (r.decided d reason reviewer).reliefrqstId = r.reliefrqstId := by
    unfold ReliefRqst.decided; split <;> rfl
  have ht := touches_setRqst hu (r.decided d reason reviewer)
  rw [hid] at ht
  exact ht.simulates hr (.decide hs hrev hd)

/-- **Every route simulates the machine of one request.** -/
theorem route_simulates {op : Op} (hu : UniquePkg t) (hc : t.Consistent) (h : op.route t = .ok t') :
    Simulates op t t' := by
  cases op with
  | createDraftRequest => exact createDraftRequest_simulates hu hc h
  | editItems => exact editItems_simulates hu h
  | deleteItem => exact deleteItem_simulates hu h
  | submitRequest => exact submitRequest_simulates hu h
  | submitEligibilityDecision => exact submitEligibilityDecision_simulates hu h
  | preparePackage ctx rqstId action post =>
    simp only [Op.route, preparePackage, bind_ok] at h
    obtain ⟨r, hg, h⟩ := h
    cases action with
    | saveDraft => exact saveDraft_simulates hu hg h
    | submitForApproval => exact submitForApproval_simulates hu hg h
    | sendForDispatch => exact sendForDispatch_simulates hu hg h
  | approvePackage ctx rqstId action post =>
    simp only [Op.route, approvePackage, bind_ok] at h
    obtain ⟨⟨r, p⟩, hg, h⟩ := h
    cases action with
    | saveDraft => exact saveDraftApproval_simulates hu hg h
    | approveAndDispatch => exact approveAndDispatch_simulates hu hg h
  | reviewApproval ctx rqstId action post =>
    simp only [Op.route, reviewApproval, bind_ok] at h
    obtain ⟨⟨r, p⟩, hg, h⟩ := h
    cases action with
    | approveAndDispatch => exact reviewApproveAndDispatch_simulates hu hg h
    | reject => exact reviewReject_simulates hu hg h
  | submitForDispatch => exact submitForDispatch_simulates hu h
  | cancelPackage => exact cancelPackage_simulates hu hc h
  | cancelPreparation => exact cancelPreparation_simulates hu h
  | markHandover => exact markHandover_simulates hu hc h

/-- A committed post is one step of one request. -/
theorem commits_header {db : Database} {op : Op} (hu : UniquePkg db.tables) (h : Commits db op) :
    Simulates op db.tables (step db op).tables := by
  obtain ⟨t, ht, -, he⟩ := step_of_commits h
  obtain ⟨hu', rqstId, hstep, hother⟩ := route_simulates hu db.consistent ht
  have hh : ∀ x, (step db op).tables.header x = t.header x := fun x => by rw [he]; rfl
  exact ⟨by rw [he]; exact hu', rqstId, by rw [hh]; exact hstep, fun x hx => by rw [hh]; exact hother x hx⟩

/-- A step of the system: nothing, or one step of one request. -/
theorem step_header {db : Database} (hu : UniquePkg db.tables) (op : Op) :
    UniquePkg (step db op).tables ∧
    (step db op = db ∨ ∃ rqstId,
      HeaderStep op rqstId (db.tables.header rqstId) ((step db op).tables.header rqstId) ∧
      ∀ x, x ≠ rqstId → (step db op).tables.header x = db.tables.header x) := by
  by_cases h : Commits db op
  · have hs := commits_header hu h
    exact ⟨hs.1, .inr hs.2⟩
  · rw [step_of_not_commits h]
    exact ⟨hu, .inl rfl⟩

end

/-! ## Reachable states -/

/-- Reachable from requests without packages. -/
inductive Reachable : Database → Prop where
  | initial {db : Database} (h0 : db.tables.reliefpkg.rows = []) : Reachable db
  | step {db : Database} (h : Reachable db) (op : Op) : Reachable (step db op)

theorem Reachable.unique {db : Database} (h : Reachable db) : UniquePkg db.tables := by
  induction h with
  | initial h0 => simp [UniquePkg, h0]
  | step _ op ih => exact (step_header ih op).1

theorem Reachable.run {db : Database} (h : Reachable db) (ops : List Op) : Reachable (run Dmis.step db ops) :=
  run_invariant (fun _ op h => h.step op) h ops

/-! ## Invariants of every request -/

/-- The header passes the table checks. -/
structure Header.Checked (h : Header) : Prop where
  rqst : h.rqst.Check
  pkg : ∀ p ∈ h.pkg, p.Check

theorem header_checked {t : Tables} (hc : t.Consistent) {x : Nat} {h : Header} (hh : t.header x = some h) :
    h.Checked := by
  obtain ⟨r, hr, rfl⟩ := Option.map_eq_some_iff.1 hh
  exact ⟨hc.rqst r (Table.mem_of_get? hr), fun p hp => hc.pkg p (mem_of_firstPkg hp).1⟩

/-- `I` holds of every request and its package. -/
def Headers (I : Header → Prop) (db : Database) : Prop :=
  UniquePkg db.tables ∧ ∀ x h, db.tables.header x = some h → I h

theorem step_headers {I : Header → Prop}
    (hI : ∀ op rqstId a h, HeaderStep op rqstId a (some h) → (∀ g ∈ a, I g) → h.Checked → I h)
    {db : Database} (hdb : Headers I db) (op : Op) : Headers I (step db op) := by
  obtain ⟨hu, hstep⟩ := step_header hdb.1 op
  refine ⟨hu, fun x h hh => ?_⟩
  rcases hstep with he | ⟨rqstId, hs, hother⟩
  · rw [he] at hh
    exact hdb.2 x h hh
  · by_cases hx : x = rqstId
    · subst hx
      have hc := header_checked (step db op).consistent hh
      rw [hh] at hs
      exact hI op x _ h hs (fun g hg => hdb.2 x g hg) hc
    · exact hdb.2 x h (hother x hx ▸ hh)

theorem run_headers {I : Header → Prop}
    (hI : ∀ op rqstId a h, HeaderStep op rqstId a (some h) → (∀ g ∈ a, I g) → h.Checked → I h)
    {db : Database} (hdb : Headers I db) (ops : List Op) : Headers I (run step db ops) :=
  run_invariant (I := Headers I) (fun _ op h => step_headers hI h op) hdb ops

end Dmis
