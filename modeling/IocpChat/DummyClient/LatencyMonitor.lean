import Mathlib.Algebra.BigOperators.Fin
import IocpChat.Common.Types
import IocpChat.Lib.Threads
import IocpChat.Lib.Transition

/-!
# Latency monitor

The workers of the stress test record a sample whenever the answer to a ping
arrives.  Each counter is an atomic of its own, so `RecordSample` is a sequence
of steps, and the calls of several threads interleave between them.
-/

namespace IocpChat

open TransitionSystem

def bucketResolutionUs : Nat := 100

def maxTrackedUs : Nat := 1000000

def numBuckets : Nat := maxTrackedUs / bucketResolutionUs + 1

/-- The quotient is narrowed before it is compared with the last index. -/
def bucketIdx (rttUs : UInt64) : Int :=
  let bucketIdx := int32 (rttUs / UInt64.ofNat bucketResolutionUs).toNat
  if bucketIdx ≥ numBuckets then numBuckets - 1 else bucketIdx

/-- What a thread does next in `RecordSample`. -/
inductive RecordSamplePc where
  | idle
  | addCount (rttUs : UInt64)
  | addLatency (rttUs : UInt64)
  | loadMin (rttUs : UInt64)
  | exchangeMin (rttUs : UInt64) (currentMin : UInt32)
  | loadMax (rttUs : UInt64)
  | exchangeMax (rttUs : UInt64) (currentMax : UInt32)
  | addBucket (rttUs : UInt64)
  deriving DecidableEq, Repr

namespace RecordSamplePc

/-- The sample is in `_totalCount` and in no bucket yet. -/
def counted : RecordSamplePc → Bool
  | idle | addCount _ => false
  | _ => true

end RecordSamplePc

/-- A sample that has been recorded, and the index used for it. -/
structure RecordedSample where
  rttUs : UInt64
  bucketIdx : Int
  deriving DecidableEq, Repr

def RecordedSample.record (rttUs : UInt64) : RecordedSample :=
  { rttUs := rttUs
    bucketIdx := IocpChat.bucketIdx rttUs }

structure LatencyMonitor (Thread : Type) where
  buckets : Fin numBuckets → UInt32
  totalCount : UInt64
  totalLatencyUs : UInt64
  minLatencyUs : UInt32
  maxLatencyUs : UInt32
  pcs : Thread → RecordSamplePc
  recorded : List RecordedSample

/-- `fails` says that `compare_exchange_weak` fails though the values agree. -/
inductive LatencyAction (Thread : Type) where
  | recordSample (thread : Thread) (rttUs : UInt64)
  | advance (thread : Thread) (fails : Bool)
  deriving DecidableEq, Repr

namespace LatencyMonitor

variable {Thread : Type}

/-- `Reset`, before any thread records. -/
def reset : LatencyMonitor Thread :=
  { buckets := fun _ => 0
    totalCount := 0
    totalLatencyUs := 0
    minLatencyUs := 4294967295
    maxLatencyUs := 0
    pcs := fun _ => .idle
    recorded := [] }

/-- `fetch_add` on `_buckets[bucketIdx]`.  An index outside of the array writes
to other memory. -/
def addBucket (monitor : LatencyMonitor Thread) (sample : RecordedSample) :
    LatencyMonitor Thread :=
  { monitor with
    buckets := fun bucket =>
      if (bucket.val : Int) = sample.bucketIdx then monitor.buckets bucket + 1
      else monitor.buckets bucket
    recorded := monitor.recorded ++ [sample] }

section Steps

variable [DecidableEq Thread]

def goto (monitor : LatencyMonitor Thread) (thread : Thread)
    (pc : RecordSamplePc) : LatencyMonitor Thread :=
  { monitor with pcs := Function.update monitor.pcs thread pc }

/-- One round of the loop on `_minLatencyUs`. -/
def exchangeMin (monitor : LatencyMonitor Thread) (thread : Thread)
    (rttUs : UInt64) (currentMin : UInt32) (fails : Bool) :
    LatencyMonitor Thread :=
  if rttUs < currentMin.toUInt64 then
    if monitor.minLatencyUs = currentMin ∧ fails = false then
      { monitor with minLatencyUs := rttUs.toUInt32 }.goto thread
        (.loadMax rttUs)
    else monitor.goto thread (.exchangeMin rttUs monitor.minLatencyUs)
  else monitor.goto thread (.loadMax rttUs)

/-- One round of the loop on `_maxLatencyUs`. -/
def exchangeMax (monitor : LatencyMonitor Thread) (thread : Thread)
    (rttUs : UInt64) (currentMax : UInt32) (fails : Bool) :
    LatencyMonitor Thread :=
  if rttUs > currentMax.toUInt64 then
    if monitor.maxLatencyUs = currentMax ∧ fails = false then
      { monitor with maxLatencyUs := rttUs.toUInt32 }.goto thread
        (.addBucket rttUs)
    else monitor.goto thread (.exchangeMax rttUs monitor.maxLatencyUs)
  else monitor.goto thread (.addBucket rttUs)

def step (monitor : LatencyMonitor Thread) :
    LatencyAction Thread → Option (LatencyMonitor Thread)
  | .recordSample thread rttUs =>
      if monitor.pcs thread = .idle then
        some (monitor.goto thread (.addCount rttUs))
      else none
  | .advance thread fails =>
      match monitor.pcs thread with
      | .idle => none
      | .addCount rttUs =>
          some ({ monitor with totalCount := monitor.totalCount + 1 }.goto
            thread (.addLatency rttUs))
      | .addLatency rttUs =>
          some ({ monitor with
            totalLatencyUs := monitor.totalLatencyUs + rttUs }.goto
              thread (.loadMin rttUs))
      | .loadMin rttUs =>
          some (monitor.goto thread
            (.exchangeMin rttUs monitor.minLatencyUs))
      | .exchangeMin rttUs currentMin =>
          some (monitor.exchangeMin thread rttUs currentMin fails)
      | .loadMax rttUs =>
          some (monitor.goto thread
            (.exchangeMax rttUs monitor.maxLatencyUs))
      | .exchangeMax rttUs currentMax =>
          some (monitor.exchangeMax thread rttUs currentMax fails)
      | .addBucket rttUs =>
          some ((monitor.addBucket (.record rttUs)).goto thread .idle)

/-- What one step does: a call starts, or a thread takes its next step. -/
inductive Steps (monitor : LatencyMonitor Thread) :
    LatencyAction Thread → LatencyMonitor Thread → Prop where
  | recordSample {thread : Thread} {rttUs : UInt64} :
      monitor.pcs thread = .idle →
      Steps monitor (.recordSample thread rttUs)
        (monitor.goto thread (.addCount rttUs))
  | addCount {thread : Thread} {fails : Bool} {rttUs : UInt64} :
      monitor.pcs thread = .addCount rttUs →
      Steps monitor (.advance thread fails)
        ({ monitor with totalCount := monitor.totalCount + 1 }.goto thread
          (.addLatency rttUs))
  | addLatency {thread : Thread} {fails : Bool} {rttUs : UInt64} :
      monitor.pcs thread = .addLatency rttUs →
      Steps monitor (.advance thread fails)
        ({ monitor with
          totalLatencyUs := monitor.totalLatencyUs + rttUs }.goto thread
            (.loadMin rttUs))
  | loadMin {thread : Thread} {fails : Bool} {rttUs : UInt64} :
      monitor.pcs thread = .loadMin rttUs →
      Steps monitor (.advance thread fails)
        (monitor.goto thread (.exchangeMin rttUs monitor.minLatencyUs))
  | exchangeMin {thread : Thread} {fails : Bool} {rttUs : UInt64}
      {currentMin : UInt32} :
      monitor.pcs thread = .exchangeMin rttUs currentMin →
      Steps monitor (.advance thread fails)
        (monitor.exchangeMin thread rttUs currentMin fails)
  | loadMax {thread : Thread} {fails : Bool} {rttUs : UInt64} :
      monitor.pcs thread = .loadMax rttUs →
      Steps monitor (.advance thread fails)
        (monitor.goto thread (.exchangeMax rttUs monitor.maxLatencyUs))
  | exchangeMax {thread : Thread} {fails : Bool} {rttUs : UInt64}
      {currentMax : UInt32} :
      monitor.pcs thread = .exchangeMax rttUs currentMax →
      Steps monitor (.advance thread fails)
        (monitor.exchangeMax thread rttUs currentMax fails)
  | addBucket {thread : Thread} {fails : Bool} {rttUs : UInt64} :
      monitor.pcs thread = .addBucket rttUs →
      Steps monitor (.advance thread fails)
        ((monitor.addBucket (.record rttUs)).goto thread .idle)

theorem step_eq_some_iff {monitor next : LatencyMonitor Thread}
    {action : LatencyAction Thread} :
    monitor.step action = some next ↔ Steps monitor action next := by
  constructor
  · intro stepped
    cases action with
    | recordSample thread rttUs =>
        simp only [step, Option.ite_none_right_eq_some,
          Option.some.injEq] at stepped
        obtain ⟨idle, rfl⟩ := stepped
        exact .recordSample idle
    | advance thread fails =>
        simp only [step] at stepped
        cases at_ : monitor.pcs thread with
        | idle =>
            rw [at_] at stepped
            cases stepped
        | addCount rttUs =>
            rw [at_] at stepped
            cases stepped
            exact .addCount at_
        | addLatency rttUs =>
            rw [at_] at stepped
            cases stepped
            exact .addLatency at_
        | loadMin rttUs =>
            rw [at_] at stepped
            cases stepped
            exact .loadMin at_
        | exchangeMin rttUs currentMin =>
            rw [at_] at stepped
            cases stepped
            exact .exchangeMin at_
        | loadMax rttUs =>
            rw [at_] at stepped
            cases stepped
            exact .loadMax at_
        | exchangeMax rttUs currentMax =>
            rw [at_] at stepped
            cases stepped
            exact .exchangeMax at_
        | addBucket rttUs =>
            rw [at_] at stepped
            obtain rfl := Option.some.inj stepped
            exact .addBucket at_
  · intro steps
    cases steps with
    | recordSample idle => exact if_pos idle
    | _ at_ => simp only [step, at_]

end Steps

def machine (Thread : Type) [DecidableEq Thread] :
    Machine (LatencyMonitor Thread) (LatencyAction Thread) where
  initial monitor := monitor = reset
  step := step

end LatencyMonitor

end IocpChat
