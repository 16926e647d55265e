/-!
# Accounts

* `Account` — a snapshot of a trading account; `Account.fresh` has no position open.
-/

namespace DealDesk

structure Account where
  login : UInt64
  balance : Float
  equity : Float
  freeMargin : Float
  /-- In percent. -/
  marginLevel : Float
  currency : String
  deriving Repr

def Account.fresh (login : UInt64) (balance : Float) (currency : String) : Account :=
  { login := login, balance := balance, equity := balance, freeMargin := balance
    marginLevel := 0, currency := currency }

end DealDesk
