import DealDesk.LoadProfile

/-!
# The printed summary

* `timingLines` — the pace of a run and what became of its orders.
* `summaryLines` — totals, a row per client, and a row per ticket.
* `ClientRow` — the figures of one client's row; `clientRows?` has one per client of the register.
-/

namespace DealDesk

namespace Summary

/-- The text at the left of a column of so many characters; a longer text keeps its length. -/
def column (width : Nat) (text : String) : String :=
  text ++ String.ofList (List.replicate (width - text.length) ' ')

def rule : String := String.ofList (List.replicate 64 '=')

def dashes (n : Nat) : String := "  " ++ String.ofList (List.replicate n '-')

/-! ## Timing -/

def timingLines (r : RunReport) : List String :=
  ["",
    "  Timing (" ++ r.profile ++ "):",
    "    Client submission phase: " ++ toString r.submitElapsed.millis ++ "ms",
    "    Total processing time:   " ++ toString r.totalElapsed.millis ++ "ms",
    "    Requests submitted:      " ++ toString r.submitted,
    "    Requests accepted:       " ++ toString r.accepted,
    "    Results delivered:       " ++ toString r.delivered,
    "    Lost requests:           " ++ toString r.lost,
    "    Throughput:              " ++ Decimal.fixed 1 r.throughput ++ " req/sec"]

/-! ## Figures -/

structure ClientRow where
  client : ClientId
  total : Nat
  ok : Nat
  fail : Nat
  dup : Nat
  deriving DecidableEq, Repr

/-- Arithmetic is checked: there is no difference below zero. -/
def checkedSub (a b : Nat) : Option Nat := if b ≤ a then some (a - b) else none

/-- What is neither a success nor a duplicate is a failure. -/
def clientRow? (client : ClientId) (s : Stats) : Option ClientRow := do
  let others ← checkedSub s.total s.successful
  let fail ← checkedSub others s.duplicates
  return { client := client, total := s.total, ok := s.successful
           fail := fail, dup := s.duplicates }

def clientRows? (r : Register) : Option (List ClientRow) :=
  r.clients.mapM fun c => clientRow? c (r.statsOf c)

/-! ## Text -/

def clientLine (row : ClientRow) : String :=
  "  " ++ column 12 row.client.text ++ column 8 (toString row.total) ++ column 8 (toString row.ok)
    ++ column 8 (toString row.fail) ++ column 8 (toString row.dup)

def ticketLine (row : TicketRow) : String :=
  "  " ++ column 44 row.orderId.text ++ column 12 ("#" ++ row.ticket) ++ Decimal.fixed 5 row.price

def totalLines (s : Stats) : List String :=
  ["  Total Requests:   " ++ toString s.total,
    "  Successful:       " ++ toString s.successful,
    "  Rejected:         " ++ toString s.rejected,
    "  Errors:           " ++ toString s.errors,
    "  Duplicates:       " ++ toString s.duplicates,
    "  Success Rate:     " ++ Decimal.fixed 1 s.successRate ++ "%"]

def clientHead : String :=
  "  " ++ column 12 "Client" ++ column 8 "Total" ++ column 8 "OK" ++ column 8 "Fail"
    ++ column 8 "Dup"

def ticketHead : String := "  " ++ column 44 "Request ID" ++ column 12 "Ticket" ++ "Price"

/-- The summary with these rows of the clients. -/
def summaryWith (rows : List ClientRow) (r : Register) : List String :=
  ["", rule, "                    EXECUTION SUMMARY", rule] ++ totalLines r.stats
    ++ [rule, "", "  Per-Client Breakdown:", clientHead, dashes 44]
    ++ rows.map clientLine
    ++ ["", "  Request ID -> Ticket Mapping (successful trades):", ticketHead, dashes 66]
    ++ r.tickets.map ticketLine ++ [rule]

/-- Without its rows a summary is not printed. -/
def summaryLines (r : Register) : List String :=
  match clientRows? r with
  | some rows => summaryWith rows r
  | none => []

/-- The lines as text, each with its end. -/
def text (lines : List String) : String := String.join (lines.map (· ++ "\n"))

end Summary

end DealDesk
