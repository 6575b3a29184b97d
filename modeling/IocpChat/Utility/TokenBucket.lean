import IocpChat.Common.Types

/-!
# TokenBucket

The rate limiter of a session.  Only the worker that processes the session's
receive calls it, so its compare-exchange loops succeed at once; `now` is what
`GetTickCount64` returns.
-/

namespace IocpChat

structure TokenBucket where
  capacity : Int
  refillRatePerSec : Int
  tokens : Int
  lastRefillTick : UInt64
  deriving DecidableEq, Repr

namespace TokenBucket

/-- The constructor. -/
def full (capacity refillRatePerSec : Int) (now : UInt64) : TokenBucket :=
  { capacity := capacity
    refillRatePerSec := refillRatePerSec
    tokens := capacity
    lastRefillTick := now }

def refill (bucket : TokenBucket) (now : UInt64) : TokenBucket :=
  if now ≤ bucket.lastRefillTick then bucket
  else
    let elapsedMs := now - bucket.lastRefillTick
    if elapsedMs < 50 then bucket
    else
      let addTokens :=
        int32 (elapsedMs * .ofInt bucket.refillRatePerSec / 1000).toNat
      let bucket := { bucket with lastRefillTick := now }
      if 0 < addTokens then
        { bucket with
          tokens := min bucket.capacity (int32 (bucket.tokens + addTokens)) }
      else bucket

def consume (bucket : TokenBucket) (count : Int) (now : UInt64) :
    Bool × TokenBucket :=
  let bucket := bucket.refill now
  if bucket.tokens < count then (false, bucket)
  else (true, { bucket with tokens := int32 (bucket.tokens - count) })

def reset (bucket : TokenBucket) (now : UInt64) : TokenBucket :=
  { bucket with
    tokens := bucket.capacity
    lastRefillTick := now }

end TokenBucket

end IocpChat
