import DealDesk.Account
import DealDesk.Instrument
import DealDesk.Record.Shape
import DealDesk.Register.Stats
import DealDesk.Settings

/-!
# The record forms

* `Form α` — how an `α` is written as a record and read from one.
* The forms of orders, settlements, instruments, accounts, fills, failures and settings.
* `Outcome` and `Status` have forms of their own: a variant with a content, and a bare variant.
-/

namespace DealDesk

structure Form (α : Type) where
  shape : Shape
  data : α → List Datum
  ofData? : List Datum → Option α

namespace Form

variable {α : Type}

def encode (f : Form α) (float : Float → Json) (a : α) : Json := f.shape.encode float (f.data a)

/-- Data that were decoded by the shape always make a value. -/
def decode (f : Form α) (j : Json) : Except DecodeError α :=
  match f.shape.decode j with
  | .error e => .error e
  | .ok data =>
    match f.ofData? data with
    | some a => .ok a
    | none => .error (.badText .malformed)

end Form

/-! ## Variants -/

def Side.variant : Side → String
  | .buy => "Buy"
  | .sell => "Sell"

def Side.ofVariant? (name : String) : Option Side :=
  [Side.buy, .sell].find? fun s => s.variant = name

def Status.variant : Status → String
  | .success => "Success"
  | .rejected => "Rejected"
  | .invalidParams => "InvalidParams"
  | .connectionError => "ConnectionError"
  | .marginError => "MarginError"
  | .duplicate => "Duplicate"
  | .retryExhausted => "RetryExhausted"

def Status.ofVariant? (name : String) : Option Status :=
  Status.all.find? fun s => s.variant = name

def FailureKind.all : List FailureKind := [.connection, .rejected, .invalidParams, .margin]

def FailureKind.variant : FailureKind → String
  | .connection => "Connection"
  | .rejected => "Rejected"
  | .invalidParams => "InvalidParams"
  | .margin => "Margin"

def FailureKind.ofVariant? (name : String) : Option FailureKind :=
  FailureKind.all.find? fun k => k.variant = name

def Disposition.ofVariant? (name : String) : Option Disposition :=
  [Disposition.transient, .permanent].find? fun d => d.label = name

def sideKind : Kind := .choice ["Buy", "Sell"]

def statusKind : Kind := .choice (Status.all.map Status.variant)

/-! ## Fields that may be absent -/

def optionalField (name : String) (kind : Kind) : Field :=
  { name := name, kind := .optional kind, ifMissing := some .absent }

def Datum.ofFloat? : Option Float → Datum
  | some x => .present (.float x)
  | none => .absent

def Datum.ofText? : Option String → Datum
  | some s => .present (.text s)
  | none => .absent

def Datum.float? : Datum → Option Float
  | .present (.float x) => some x
  | _ => none

def Datum.text? : Datum → Option String
  | .present (.text s) => some s
  | _ => none

/-! ## Forms -/

def Order.form : Form Order where
  shape :=
    { title := "TradeRequest"
      fields :=
        [{ name := "request_id", kind := .text }, { name := "submitter_id", kind := .text },
          { name := "side", kind := sideKind }, { name := "symbol", kind := .text },
          { name := "volume", kind := .float }, optionalField "stop_loss" .float,
          optionalField "take_profit" .float, { name := "submitted_at", kind := .i64 }] }
  data o :=
    [.text o.id.text, .text o.client.text, .choice o.side.variant, .text o.symbol,
      .float o.volume, .ofFloat? o.stopLoss, .ofFloat? o.takeProfit, .int o.submittedAt.toInt]
  ofData?
    | [.text id, .text client, .choice side, .text symbol, .float volume, stopLoss, takeProfit,
        .int submittedAt] =>
      (Side.ofVariant? side).map fun side =>
        { id := ⟨id⟩, client := ⟨client⟩, side := side, symbol := symbol, volume := volume
          stopLoss := stopLoss.float?, takeProfit := takeProfit.float?
          submittedAt := Int64.ofInt submittedAt }
    | _ => none

def Settlement.form : Form Settlement where
  shape :=
    { title := "TradeResult"
      fields :=
        [{ name := "request_id", kind := .text }, { name := "submitter_id", kind := .text },
          { name := "status", kind := statusKind }, optionalField "ticket" .text,
          optionalField "price" .float, optionalField "error" .text,
          { name := "retry_count", kind := .u32 }, { name := "sequence", kind := .u64 },
          { name := "completed_at", kind := .i64 }] }
  data s :=
    [.text s.orderId.text, .text s.client.text, .choice s.status.variant, .ofText? s.ticket,
      .ofFloat? s.price, .ofText? s.error, .int s.retries.toNat, .int s.sequence.toNat,
      .int s.completedAt.toInt]
  ofData?
    | [.text orderId, .text client, .choice status, ticket, price, error, .int retries,
        .int sequence, .int completedAt] =>
      (Status.ofVariant? status).map fun status =>
        { orderId := ⟨orderId⟩, client := ⟨client⟩, status := status, ticket := ticket.text?
          price := price.float?, error := error.text?, retries := UInt32.ofNat retries.toNat
          sequence := UInt64.ofNat sequence.toNat, completedAt := Int64.ofInt completedAt }
    | _ => none

def Instrument.form : Form Instrument where
  shape :=
    { title := "InstrumentSpec"
      fields :=
        [{ name := "symbol", kind := .text }, { name := "bid", kind := .float },
          { name := "ask", kind := .float }, { name := "min_volume", kind := .float },
          { name := "max_volume", kind := .float }, { name := "volume_step", kind := .float },
          { name := "digits", kind := .u32 }, { name := "tradeable", kind := .flag }] }
  data i :=
    [.text i.symbol, .float i.bid, .float i.ask, .float i.minVolume, .float i.maxVolume,
      .float i.volumeStep, .int i.digits.toNat, .flag i.tradeable]
  ofData?
    | [.text symbol, .float bid, .float ask, .float minVolume, .float maxVolume,
        .float volumeStep, .int digits, .flag tradeable] =>
      some
        { symbol := symbol, bid := bid, ask := ask, minVolume := minVolume
          maxVolume := maxVolume, volumeStep := volumeStep
          digits := UInt32.ofNat digits.toNat, tradeable := tradeable }
    | _ => none

def Account.form : Form Account where
  shape :=
    { title := "AccountInfo"
      fields :=
        [{ name := "login", kind := .u64 }, { name := "balance", kind := .float },
          { name := "equity", kind := .float }, { name := "free_margin", kind := .float },
          { name := "margin_level", kind := .float }, { name := "currency", kind := .text }] }
  data a :=
    [.int a.login.toNat, .float a.balance, .float a.equity, .float a.freeMargin,
      .float a.marginLevel, .text a.currency]
  ofData?
    | [.int login, .float balance, .float equity, .float freeMargin, .float marginLevel,
        .text currency] =>
      some
        { login := UInt64.ofNat login.toNat, balance := balance, equity := equity
          freeMargin := freeMargin, marginLevel := marginLevel, currency := currency }
    | _ => none

def Fill.form : Form Fill where
  shape :=
    { title := "Fill"
      fields :=
        [{ name := "ticket", kind := .text }, { name := "request_id", kind := .text },
          { name := "symbol", kind := .text }, { name := "side", kind := sideKind },
          { name := "volume", kind := .float }, { name := "price", kind := .float },
          { name := "executed_at", kind := .i64 }] }
  data f :=
    [.text f.ticket, .text f.orderId.text, .text f.symbol, .choice f.side.variant,
      .float f.volume, .float f.price, .int f.executedAt.toInt]
  ofData?
    | [.text ticket, .text orderId, .text symbol, .choice side, .float volume, .float price,
        .int executedAt] =>
      (Side.ofVariant? side).map fun side =>
        { ticket := ticket, orderId := ⟨orderId⟩, symbol := symbol, side := side
          volume := volume, price := price, executedAt := Int64.ofInt executedAt }
    | _ => none

def Failure.form : Form Failure where
  shape :=
    { title := "ExecutionFailure"
      fields :=
        [{ name := "kind", kind := .choice (FailureKind.all.map FailureKind.variant) },
          { name := "disposition", kind := .choice ["Transient", "Permanent"] },
          { name := "reason", kind := .text }] }
  data f := [.choice f.kind.variant, .choice f.disposition.label, .text f.reason]
  ofData?
    | [.choice kind, .choice disposition, .text reason] =>
      match FailureKind.ofVariant? kind, Disposition.ofVariant? disposition with
      | some kind, some disposition =>
        some { kind := kind, disposition := disposition, reason := reason }
      | _, _ => none
    | _ => none

/-- A field with a standard content. -/
def settledField (name : String) (kind : Kind) (d : Datum) : Field :=
  { name := name, kind := kind, ifMissing := some d, ifShort := some d }

def Settings.form : Form Settings where
  shape :=
    { title := "ProcessorConfig"
      fields :=
        [settledField "workers" .usize (.int 4), settledField "max_retries" .u32 (.int 3),
          settledField "retry_base_ms" .u64 (.int 100),
          settledField "retry_max_ms" .u64 (.int 10000),
          settledField "retry_rejections" .flag (.flag false)] }
  data s :=
    [.int s.workers.toNat, .int s.maxRetries.toNat, .int s.retryBaseMs.toNat,
      .int s.retryMaxMs.toNat, .flag s.retryRejections]
  ofData?
    | [.int workers, .int maxRetries, .int retryBaseMs, .int retryMaxMs, .flag retryRejections] =>
      some
        { workers := UInt64.ofNat workers.toNat, maxRetries := UInt32.ofNat maxRetries.toNat
          retryBaseMs := UInt64.ofNat retryBaseMs.toNat
          retryMaxMs := UInt64.ofNat retryMaxMs.toNat, retryRejections := retryRejections }
    | _ => none

/-! ## Variants with and without a content -/

def Status.encode (s : Status) : Json := .text s.variant

def Status.decode (j : Json) : Except DecodeError Status :=
  match statusKind.decode j with
  | .error e => .error e
  | .ok (.choice name) =>
    match Status.ofVariant? name with
    | some s => .ok s
    | none => .error (.badText .malformed)
  | .ok _ => .error (.badText .malformed)

namespace Outcome

def variants : List String := ["Filled", "Failed"]

def encode (float : Float → Json) : Outcome → Json
  | .filled f => Json.ofMembers [("Filled", Fill.form.encode float f)]
  | .failed f => Json.ofMembers [("Failed", Failure.form.encode float f)]

def decodeContent (name : String) (j : Json) : Except DecodeError Outcome :=
  if name = "Filled" then (Fill.form.decode j).map .filled
  else (Failure.form.decode j).map .failed

def decode (j : Json) : Except DecodeError Outcome :=
  j.decodeVariant variants
    (fun _ => .error (.wrongType "unit variant" "newtype variant")) decodeContent

end Outcome

/-- The total, and a member for each status that occurs. -/
def Stats.encode (s : Stats) : Json :=
  Json.ofMembers
    [("total", .number (Numeral.ofInt s.total)),
      ("by_status", Json.ofMembers (s.byStatus.map fun (status, n) =>
        (status.variant, .number (Numeral.ofInt n))))]

end DealDesk
