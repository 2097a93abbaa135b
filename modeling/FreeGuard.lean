import FreeGuard.Machine.AddressSpace
import FreeGuard.Machine.BlockStore
import FreeGuard.Machine.Exclusive
import FreeGuard.Machine.KeyStreams
import FreeGuard.Machine.Loop
import FreeGuard.Machine.Run
import FreeGuard.Machine.SlotPool
import FreeGuard.Model.Arc4Run
import FreeGuard.Model.Arc4random
import FreeGuard.Model.BibopHeap
import FreeGuard.Model.BigHeap
import FreeGuard.Model.BigRace
import FreeGuard.Model.BigRun
import FreeGuard.Model.CallRun
import FreeGuard.Model.Chacha
import FreeGuard.Model.Defines
import FreeGuard.Model.FreeList
import FreeGuard.Model.HashMap
import FreeGuard.Model.HeapRace
import FreeGuard.Model.LibFreeGuard
import FreeGuard.Model.LibRun
import FreeGuard.Model.List
import FreeGuard.Model.SmallHeap
import FreeGuard.Model.SmallRun
import FreeGuard.Model.Sse2rng
import FreeGuard.Model.Xthread
import FreeGuard.Proofs.Allocation
import FreeGuard.Proofs.Arc4random
import FreeGuard.Proofs.BigHeap
import FreeGuard.Proofs.BigRace
import FreeGuard.Proofs.BlockMoves
import FreeGuard.Proofs.Blocks
import FreeGuard.Proofs.Buckets
import FreeGuard.Proofs.BumpPointer
import FreeGuard.Proofs.CallRun
import FreeGuard.Proofs.Canary
import FreeGuard.Proofs.Chacha
import FreeGuard.Proofs.Contents
import FreeGuard.Proofs.FreeList
import FreeGuard.Proofs.Guards
import FreeGuard.Proofs.HashMap
import FreeGuard.Proofs.HeapRace
import FreeGuard.Proofs.Holdings
import FreeGuard.Proofs.Layout
import FreeGuard.Proofs.LibRun
import FreeGuard.Proofs.Library
import FreeGuard.Proofs.ObjectCall
import FreeGuard.Proofs.Requeue
import FreeGuard.Proofs.SizeClass
import FreeGuard.Proofs.Slots
import FreeGuard.Proofs.SmallHeap
import FreeGuard.Proofs.SmallRun
import FreeGuard.Proofs.Sse2rng
import FreeGuard.Proofs.Xthread
import FreeGuard.Soundness.AlignedAllocation
import FreeGuard.Soundness.AlignedFree
import FreeGuard.Soundness.BlockSafety
import FreeGuard.Soundness.BumpEnumeration
import FreeGuard.Soundness.BumpRandomisation
import FreeGuard.Soundness.CachedConservation
import FreeGuard.Soundness.CanaryCheck
import FreeGuard.Soundness.CipherStream
import FreeGuard.Soundness.ClearedAllocation
import FreeGuard.Soundness.ConcurrentFree
import FreeGuard.Soundness.ConcurrentHeap
import FreeGuard.Soundness.DeadRealloc
import FreeGuard.Soundness.DestroyOnFree
import FreeGuard.Soundness.Dispatch
import FreeGuard.Soundness.FifoReuse
import FreeGuard.Soundness.GuardSeparation
import FreeGuard.Soundness.HashMapIteration
import FreeGuard.Soundness.HashMapRefinement
import FreeGuard.Soundness.HeapBounds
import FreeGuard.Soundness.HeapPartition
import FreeGuard.Soundness.InvalidFree
import FreeGuard.Soundness.KeystreamOnce
import FreeGuard.Soundness.LargeLifecycle
import FreeGuard.Soundness.ListMerge
import FreeGuard.Soundness.ListSplice
import FreeGuard.Soundness.MallocAlignment
import FreeGuard.Soundness.RandomDraws
import FreeGuard.Soundness.ReallocContents
import FreeGuard.Soundness.ShadowBijection
import FreeGuard.Soundness.ShadowBounds
import FreeGuard.Soundness.SufficientBlock
import FreeGuard.Soundness.ThreadAccounting
import FreeGuard.Soundness.ThreadRows
import FreeGuard.Soundness.ThreadSlots
import FreeGuard.Soundness.UniformDraws
import FreeGuard.Soundness.UninterruptedCalls
import FreeGuard.ToMathlib.BlockStream
import FreeGuard.ToMathlib.Congruential
import FreeGuard.ToMathlib.LinkedPath
import FreeGuard.ToMathlib.ListUpdate
import FreeGuard.ToMathlib.Radix
import FreeGuard.ToMathlib.Rejection
import FreeGuard.ToMathlib.Ring
