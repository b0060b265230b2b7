import Ns3Rmcat.Lib.Checked
import Ns3Rmcat.Lib.CircularBuffer

/-! Statistics of a rate over the last milliseconds: counters in buckets, one bucket for each
millisecond, in a circular buffer. Times are signed numbers of milliseconds, far from where 64 bits
end; the type of the scale, a float in the source, is any one with the operations that are used. -/
namespace Ns3Rmcat.Controller
open Lib

/-- What the rate is computed with. None of the operations has to be exact. -/
class FloatArith (F : Type) extends Add F, Mul F, Div F where
  ofInt64 : ℤ → F
  ofUInt64 : UInt64 → F
  half : F
  /-- The cast, which is undefined in the source from 2^32 on. -/
  toUInt32 : F → UInt32

instance : FloatArith Float32 where
  ofInt64 := Float32.ofInt
  ofUInt64 := UInt64.toFloat32
  half := 0.5
  toUInt32 := Float32.toUInt32

structure Bucket where
  /-- Sum of all samples in this bucket. -/
  sum : UInt64 := 0
  /-- Number of samples in this bucket. -/
  samples : UInt64 := 0
  deriving DecidableEq, Repr

structure RateStatistics (F : Type) where
  buckets : List Bucket
  /-- Total count recorded in buckets. -/
  accumulatedCount : UInt64
  /-- The total number of samples in the buckets. -/
  numSamples : UInt64
  /-- Oldest time recorded in buckets. -/
  oldestTime : ℤ
  /-- Bucket index of oldest counter recorded in buckets. -/
  oldestIndex : UInt32
  scale : F
  maxWindowSizeMs : ℤ
  currentWindowSizeMs : ℤ
  deriving DecidableEq

namespace RateStatistics
variable {F : Type}

def ofWindow (windowSizeMs : ℤ) (scale : F) : RateStatistics F where
  buckets := List.replicate windowSizeMs.toNat {}
  accumulatedCount := 0
  numSamples := 0
  oldestTime := -windowSizeMs
  oldestIndex := 0
  scale := scale
  maxWindowSizeMs := windowSizeMs
  currentWindowSizeMs := windowSizeMs

def reset (s : RateStatistics F) : RateStatistics F :=
  { s with
    accumulatedCount := 0
    numSamples := 0
    oldestTime := -s.maxWindowSizeMs
    oldestIndex := 0
    currentWindowSizeMs := s.maxWindowSizeMs
    buckets := s.buckets.map fun _ => {} }

def isInitialized (s : RateStatistics F) : Bool := s.oldestTime ≠ -s.maxWindowSizeMs

def eraseOldest (s : RateStatistics F) : Checked (RateStatistics F) :=
  match s.buckets[s.oldestIndex.toNat]? with
  | none => .error .endOfBuffer
  | some oldestBucket =>
    let next := s.oldestIndex + 1
    .ok { s with
      accumulatedCount := s.accumulatedCount - oldestBucket.sum
      numSamples := s.numSamples - oldestBucket.samples
      buckets := s.buckets.set s.oldestIndex.toNat {}
      oldestIndex := if s.maxWindowSizeMs ≤ next.toNat then 0 else next
      oldestTime := s.oldestTime + 1 }

/-- The loop over buckets that are too old, while there are samples and the oldest time is some
milliseconds before the new one. -/
def eraseBuckets : ℕ → RateStatistics F → Checked (RateStatistics F)
  | 0, s => .ok s
  | n + 1, s => if 0 < s.numSamples then do eraseBuckets n (← s.eraseOldest) else .ok s

def eraseOld (s : RateStatistics F) (nowMs : ℤ) : Checked (RateStatistics F) := do
  if !s.isInitialized then
    return s
  let newOldestTime := nowMs - s.currentWindowSizeMs + 1
  if newOldestTime ≤ s.oldestTime then
    return s
  let s ← eraseBuckets (newOldestTime - s.oldestTime).toNat s
  return { s with oldestTime := newOldestTime }

/-- The index of the bucket of a time, which wraps around the end of the buffer. -/
def indexOf (s : RateStatistics F) (nowMs : ℤ) : UInt32 :=
  let nowOffset := UInt32.ofNat (nowMs - s.oldestTime).toNat
  let index := s.oldestIndex + nowOffset
  if s.maxWindowSizeMs ≤ index.toNat then index - UInt32.ofNat s.maxWindowSizeMs.toNat else index

def update (s : RateStatistics F) (count : UInt64) (nowMs : ℤ) : Checked (RateStatistics F) := do
  if nowMs < s.oldestTime then
    return s
  let s ← s.eraseOld nowMs
  let s := if s.isInitialized then s else { s with oldestTime := nowMs }
  let index := (s.indexOf nowMs).toNat
  if s.buckets.length ≤ index then
    .error .endOfBuffer
  else
    return { s with
      buckets := s.buckets.modify index fun bucket => ⟨bucket.sum + count, bucket.samples + 1⟩
      accumulatedCount := s.accumulatedCount + count
      numSamples := s.numSamples + 1 }

variable [FloatArith F]

def rate (s : RateStatistics F) (nowMs : ℤ) : Checked (UInt32 × RateStatistics F) := do
  let s ← s.eraseOld nowMs
  let activeWindowSize := nowMs - s.oldestTime + 1
  if s.numSamples = 0 ∨ activeWindowSize ≤ 1 ∨ (s.numSamples ≤ 1 ∧ activeWindowSize < s.currentWindowSizeMs) then
    return (0, s)
  let scale := s.scale / FloatArith.ofInt64 activeWindowSize
  return (FloatArith.toUInt32 (FloatArith.ofUInt64 s.accumulatedCount * scale + FloatArith.half), s)

omit [FloatArith F] in
def setWindowSize (s : RateStatistics F) (windowSizeMs nowMs : ℤ) : Checked (Bool × RateStatistics F) := do
  if windowSizeMs ≤ 0 ∨ s.maxWindowSizeMs < windowSizeMs then
    return (false, s)
  let s ← { s with currentWindowSizeMs := windowSizeMs : RateStatistics F }.eraseOld nowMs
  return (true, s)

end RateStatistics

inductive RateCall where
  | reset
  | update (count : UInt64) (nowMs : ℤ)
  | rate (nowMs : ℤ)
  | setWindowSize (windowSizeMs nowMs : ℤ)
  deriving DecidableEq, Repr

inductive RateAnswer where
  | nothing
  | rate (bps : UInt32)
  | accepted (ok : Bool)
  deriving DecidableEq, Repr

/-- The statistics, and what has been answered so far. -/
structure RateAnswering (S : Type) where
  stats : S
  answers : List RateAnswer
  deriving DecidableEq

namespace RateStatistics
variable {F : Type} [FloatArith F]

def call (s : RateStatistics F) : RateCall → Checked (RateAnswer × RateStatistics F)
  | .reset => .ok (.nothing, s.reset)
  | .update count nowMs => do return (.nothing, ← s.update count nowMs)
  | .rate nowMs => do
    let (bps, s) ← s.rate nowMs
    return (.rate bps, s)
  | .setWindowSize windowSizeMs nowMs => do
    let (ok, s) ← s.setWindowSize windowSizeMs nowMs
    return (.accepted ok, s)

def step (a : RateAnswering (RateStatistics F)) (c : RateCall) : Checked (RateAnswering (RateStatistics F)) := do
  let (answer, stats) ← a.stats.call c
  return { stats, answers := a.answers ++ [answer] }

end RateStatistics

/-- What the statistics are about: the samples in a window of time, which begins at the oldest
time once there has been a sample. -/
structure RateWindow where
  maxSize : ℤ
  size : ℤ
  oldest : Option ℤ
  /-- The times and counts of the samples in the window. -/
  samples : List (ℤ × UInt64)
  deriving DecidableEq, Repr

namespace RateWindow

def empty (maxSize : ℤ) : RateWindow := ⟨maxSize, maxSize, none, []⟩

/-- The window ends at a time, or later, and what is before it is forgotten. -/
def advance (w : RateWindow) (now : ℤ) : RateWindow :=
  match w.oldest with
  | none => w
  | some oldest =>
    if now - w.size + 1 ≤ oldest then w
    else { w with
      oldest := some (now - w.size + 1)
      samples := w.samples.filter fun sample => now - w.size + 1 ≤ sample.1 }

def add (w : RateWindow) (count : UInt64) (now : ℤ) : RateWindow :=
  if w.oldest.any (now < ·) then w
  else
    let w := w.advance now
    { w with oldest := some (w.oldest.getD now), samples := w.samples ++ [(now, count)] }

def total (samples : List (ℤ × UInt64)) : UInt64 := UInt64.ofNat (samples.map fun sample => sample.2.toNat).sum

/-- The rate over a window of time that begins at start and may grow up to a size: none when it has
one millisecond only, or one sample before it has grown. -/
def rateOver {F : Type} [FloatArith F] (scale : F) (size start now : ℤ)
    (samples : List (ℤ × UInt64)) : UInt32 :=
  let active := now - start + 1
  if samples = [] ∨ active ≤ 1 ∨ (samples.length ≤ 1 ∧ active < size) then 0
  else FloatArith.toUInt32 (FloatArith.ofUInt64 (total samples) * (scale / FloatArith.ofInt64 active) + FloatArith.half)

section Calls
variable {F : Type} [FloatArith F] (scale : F)

def call (w : RateWindow) : RateCall → RateAnswer × RateWindow
  | .reset => (.nothing, empty w.maxSize)
  | .update count now => (.nothing, w.add count now)
  | .rate now =>
    let w := w.advance now
    (.rate (rateOver scale w.size (w.oldest.getD now) now w.samples), w)
  | .setWindowSize size now =>
    if size ≤ 0 ∨ w.maxSize < size then (.accepted false, w)
    else (.accepted true, { w with size }.advance now)

/-- All answers to some calls, and the window after them. -/
def runCalls (a : RateAnswering RateWindow) (calls : List RateCall) : RateAnswering RateWindow :=
  calls.foldl (fun a c => ⟨(a.stats.call scale c).2, a.answers ++ [(a.stats.call scale c).1]⟩) a

end Calls

end RateWindow

def RateCall.nowMs : RateCall → Option ℤ
  | .reset => none
  | .update _ nowMs => some nowMs
  | .rate nowMs => some nowMs
  | .setWindowSize _ nowMs => some nowMs

end Ns3Rmcat.Controller
