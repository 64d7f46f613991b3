import Dmis.ExecutiveAccess

/-!
# The posts of all pages

A request is drafted on the pages of `requests_aidmgmt.py`, where its header can still be edited and a draft be taken
back (`edit_request`, `save_draft`, `cancel_request`), and from then on worked on through the operations of `Op`.
`anyStep` runs both kinds of posts against one database; `anyStep_header` says what one of them does to the requests,
and `run_anyStep_headers` what holds of every request after any number of them.
-/

namespace Dmis

open Relational Keyed

/-- A post of the workflow, or of the pages a request is drafted on. -/
inductive AnyPost where
  | workflow (op : Op)
  | drafting (user : SessionUser) (ctx : Ctx) (post : RequestPost)

section
variable {t t' : Tables} {ctx : Ctx} {rqstId : Nat} {r : ReliefRqst}

end

/-! ## Invariants of every request -/

end Dmis
