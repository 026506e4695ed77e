import Mathlib.Data.Stream.Defs
import OpenStreamGrid.Lib.IndexedList
import OpenStreamGrid.Lib.OrderedSet
import OpenStreamGrid.Common.Types

/-!
# Bounded neighbor views

Each peer sees at most `size` other peers, so the tracker sends it updates for
those peers only. Links are made mutual; a peer whose view is full drops a
random neighbor to make room. Four structures describe one broadcast (views,
watchers, members, positions) and every operation updates them by hand:
`BroadcastViews.WellFormed` says that they agree. `FillDiff` is the whole effect
of a fill, and the later results about views use nothing else of it.
-/

namespace OpenStreamGrid

/-- A link dropped to make room: `watcher` no longer sees `peerId`. -/
structure Eviction where
  watcher : PeerId
  peerId : PeerId
deriving DecidableEq

/-- Result of topping up a peer's neighbor view. -/
structure NeighborViewFill where
  /-- Peers added to the view of the peer being filled. -/
  added : List PeerId
  /-- Peers that added the filled peer to their own view in return. -/
  reciprocal : List PeerId
  evicted : List Eviction
deriving DecidableEq

def NeighborViewFill.none : NeighborViewFill := ⟨[], [], []⟩

structure BroadcastViews where
  /-- peer -> peers it sees -/
  views : OrderedMap PeerId (OrderedSet PeerId)
  /-- peer -> peers that see it -/
  watchers : OrderedMap PeerId (OrderedSet PeerId)
  /-- Every member, sampled in place by fills; `positions` indexes it. -/
  members : List PeerId
  positions : OrderedMap PeerId ℕ
deriving DecidableEq

namespace BroadcastViews

def empty : BroadcastViews := ⟨∅, ∅, [], ∅⟩

/-- The view of a peer, empty where it has none. -/
def viewOf (b : BroadcastViews) (p : PeerId) : OrderedSet PeerId := (b.views.get? p).getD ∅

def watchersOf (b : BroadcastViews) (p : PeerId) : OrderedSet PeerId :=
  (b.watchers.get? p).getD ∅

def hasRoom (b : BroadcastViews) (size : ℕ) (p : PeerId) : Bool := (b.viewOf p).size < size

/-- A neighbor drawn from the view; none where the view is empty. -/
def randomNeighbor (b : BroadcastViews) (draw : Draw) (p : PeerId) : Option PeerId :=
  let neighbors := (b.viewOf p).toList
  neighbors[draw.index neighbors.length]?

def link (b : BroadcastViews) (source target : PeerId) : BroadcastViews :=
  { b with
    views := b.views.modify source (·.insert target)
    watchers := b.watchers.modify target (·.insert source) }

def unlink (b : BroadcastViews) (source target : PeerId) : BroadcastViews :=
  { b with
    views := b.views.modify source (·.erase target)
    watchers := b.watchers.modify target (·.erase source) }

def add (b : BroadcastViews) (p : PeerId) : BroadcastViews :=
  if p ∈ b.positions then b
  else
    { views := b.views.set p ∅
      watchers := b.watchers.set p ∅
      members := b.members ++ [p]
      positions := b.positions.set p b.members.length }

/-- The members with `p` removed: the last one takes its place. -/
def dropMember (b : BroadcastViews) (p : PeerId) (position : ℕ) : BroadcastViews :=
  match b.members.getLast? with
  | none => b
  | some last =>
      if last ≠ p then
        { b with
          members := b.members.dropLast.set position last
          positions := (b.positions.set last position).delete p }
      else
        { b with members := b.members.dropLast, positions := b.positions.delete p }

/-- Removes a member and returns the peers whose view contained it. -/
def leave (b : BroadcastViews) (p : PeerId) : BroadcastViews × List PeerId :=
  match b.positions.get? p with
  | none => (b, [])
  | some position =>
      let watchers := (b.viewOf p).toList.foldl
        (fun ws neighbor => ws.modify neighbor (·.erase p)) b.watchers
      let lost := ((watchers.get? p).getD ∅).toList
      let views := lost.foldl (fun vs watcher => vs.modify watcher (·.erase p)) b.views
      let unlinked := { b with views := views.delete p, watchers := watchers.delete p }
      (unlinked.dropMember p position, lost)

end BroadcastViews

/-! ## Filling a view -/

/-- The sampling loop's variables. -/
structure Sampling where
  members : List PeerId
  positions : OrderedMap PeerId ℕ
  withRoom : List PeerId
  full : List PeerId
  random : Stream' Draw

/-- One round of the partial Fisher-Yates over the member list. The swap
position is within the list, so both members are always found. -/
def Sampling.examine (b : BroadcastViews) (size : ℕ) (p : PeerId) (s : Sampling) (index : ℕ) :
    Sampling :=
  let swap := index + s.random.head.index (s.members.length - index)
  match s.members[swap]?, s.members[index]? with
  | some candidate, some displaced =>
      let s' : Sampling :=
        { s with
          members := (s.members.set swap displaced).set index candidate
          positions := (s.positions.set displaced swap).set candidate index
          random := s.random.tail }
      if candidate = p ∨ candidate ∈ b.viewOf p then s'
      else if b.hasRoom size candidate then { s' with withRoom := s'.withRoom ++ [candidate] }
      else { s' with full := s'.full ++ [candidate] }
  | _, _ => s

/-- The sampling loop from `index` on; `rounds` bounds what is left of it. -/
def Sampling.run (b : BroadcastViews) (size : ℕ) (p : PeerId) (wanted budget : ℕ) :
    (rounds index : ℕ) → Sampling → Sampling
  | 0, _, s => s
  | rounds + 1, index, s =>
      if index < s.members.length ∧ s.withRoom.length < wanted ∧ index < budget then
        run b size p wanted budget rounds (index + 1) (s.examine b size p index)
      else s

/-- The linking loop's variables. -/
structure Linking where
  views : BroadcastViews
  random : Stream' Draw
  result : NeighborViewFill

/-- Links `p` and one candidate, both ways where the candidate can make room. -/
def Linking.connect (size : ℕ) (p : PeerId) (l : Linking) (candidate : PeerId) : Linking :=
  let b := l.views.link p candidate
  let added := l.result.added ++ [candidate]
  if p ∈ b.viewOf candidate then
    { l with views := b, result := { l.result with added := added } }
  else if b.hasRoom size candidate then
    { l with
      views := b.link candidate p
      result := { l.result with added := added, reciprocal := l.result.reciprocal ++ [candidate] } }
  else
    match b.randomNeighbor l.random.head candidate with
    | none =>
        { views := b, random := l.random.tail, result := { l.result with added := added } }
    | some dropped =>
        { views := (b.unlink candidate dropped).link candidate p
          random := l.random.tail
          result :=
            { added := added
              reciprocal := l.result.reciprocal ++ [candidate]
              evicted := l.result.evicted ++ [⟨candidate, dropped⟩] } }

/-- The linking loop, which stops once the view is full. -/
def Linking.run (size : ℕ) (p : PeerId) : List PeerId → Linking → Linking
  | [], l => l
  | candidate :: rest, l =>
      if (l.views.viewOf p).size ≥ size then l
      else run size p rest (l.connect size p candidate)

/-- What the sampling loop of a fill ends with. -/
def BroadcastViews.sample (b : BroadcastViews) (size : ℕ) (random : Stream' Draw) (p : PeerId) :
    Sampling :=
  let wanted := size - (b.viewOf p).size
  let budget := (b.viewOf p).size + 1 + max (wanted * 8) 64
  Sampling.run b size p wanted budget b.members.length 0 ⟨b.members, b.positions, [], [], random⟩

/-- Tops up a member's view to `size` from the other members, preferring peers
whose own view has room so that fewer links need an eviction. -/
def BroadcastViews.fill (b : BroadcastViews) (size : ℕ) (random : Stream' Draw) (p : PeerId) :
    Linking :=
  if p ∉ b.views ∨ size ≤ (b.viewOf p).size then ⟨b, random, .none⟩
  else
    let s := b.sample size random p
    Linking.run size p (s.withRoom ++ s.full)
      ⟨{ b with members := s.members, positions := s.positions }, s.random, .none⟩

/-- Bounded neighbor views per broadcast. -/
structure NeighborViews where
  size : ℕ
  /-- What `random()` returns from here on. -/
  random : Stream' Draw
  broadcasts : OrderedMap BroadcastId BroadcastViews

namespace NeighborViews

def new (size : ℕ) (random : Stream' Draw) : NeighborViews := ⟨size, random, ∅⟩

/-- Whether the broadcast has members, i.e. was seeded or joined. -/
def has (v : NeighborViews) (broadcastId : BroadcastId) : Bool := broadcastId ∈ v.broadcasts

def broadcastViews (v : NeighborViews) (broadcastId : BroadcastId) : BroadcastViews :=
  (v.broadcasts.get? broadcastId).getD .empty

/-- Registers a member without links. Adding a member twice is a no-op. -/
def add (v : NeighborViews) (broadcastId : BroadcastId) (peerId : PeerId) : NeighborViews :=
  { v with
    broadcasts := v.broadcasts.set broadcastId ((v.broadcastViews broadcastId).add peerId) }

def view (v : NeighborViews) (broadcastId : BroadcastId) (peerId : PeerId) :
    Option (OrderedSet PeerId) :=
  (v.broadcasts.get? broadcastId).bind (·.views.get? peerId)

def fill (v : NeighborViews) (broadcastId : BroadcastId) (peerId : PeerId) :
    NeighborViews × NeighborViewFill :=
  match v.broadcasts.get? broadcastId with
  | none => (v, .none)
  | some broadcast =>
      let filled := broadcast.fill v.size v.random peerId
      ({ v with
          random := filled.random
          broadcasts := v.broadcasts.set broadcastId filled.views }, filled.result)

def leave (v : NeighborViews) (broadcastId : BroadcastId) (peerId : PeerId) :
    NeighborViews × List PeerId :=
  match v.broadcasts.get? broadcastId with
  | none => (v, [])
  | some broadcast =>
      let (left, lost) := broadcast.leave peerId
      if peerId ∈ broadcast.positions ∧ left.members = [] then
        ({ v with broadcasts := v.broadcasts.delete broadcastId }, lost)
      else ({ v with broadcasts := v.broadcasts.set broadcastId left }, lost)

def removeBroadcast (v : NeighborViews) (broadcastId : BroadcastId) : NeighborViews :=
  { v with broadcasts := v.broadcasts.delete broadcastId }

end NeighborViews

end OpenStreamGrid
