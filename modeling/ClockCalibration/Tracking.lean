import ClockCalibration.Binary32.Basic
/-!
# Carrier tracking

While it receives a frame the radio tracks the carrier of the sender.  Two
registers tell the result: over how long an interval the carrier was tracked,
and by how much it drifted off in that interval.  Their ratio is the relative
difference of the two clock rates.
-/

namespace ClockCalibration.Tracking

def offsetMask : UInt64 := 0x7ffff

/-- The sign bit of the 19-bit offset. -/
def offsetSign : UInt64 := 0x40000

/-- The interval in the low 32 bits of its register. -/
def interval (word : UInt64) : Int := word.toUInt32.toInt32.toInt

/-- The signed offset in the low 19 bits of its register; the bits above are
reserved. -/
def offset (word : UInt64) : Int :=
  let low := word &&& offsetMask
  if low &&& offsetSign = 0 then low.toNat else low.toNat - 0x80000

/-- The ratio of the sender's clock rate to the receiver's: one more than the
offset over the interval, each step rounded to a `Binary32`.  No interval
means that nothing was tracked, hence no correction. -/
def correction (interval offset : Int) : Binary32 :=
  if interval = 0 then .one
  else
    let ratio := Binary32.ofRat ((Binary32.ofRat offset).toRat / (Binary32.ofRat interval).toRat)
    .ofRat (1 + ratio.toRat)

end ClockCalibration.Tracking
