import StreamFraming.Catalogue
import StreamFraming.Proofs.Sending

/-!
# Segments and the size bound

Neither how the bytes of a direction are split into segments nor the size bound decides anything
about messages: both only move the cuts between them.
-/

namespace StreamFraming

open Http

/-- The engine with another size bound. -/
def Engine.withBound {α μ : Type} (e : Engine α μ) (bound : UInt32) : Engine α μ :=
  { e with registry := { e.registry with maxFlushPoint := bound } }

theorem Registry.IsHttp.withBound {α : Type} [Holds α Progress] {e : Engine α Tally}
    (http : e.registry.IsHttp) (bound : UInt32) : (e.withBound bound).registry.IsHttp :=
  ⟨http.scanners, http.bound⟩

/-- The segments of each block sent as one. -/
def joined (blocks : List (Direction × List (List UInt8))) : List (Direction × List UInt8) :=
  blocks.map fun (d, segments) => (d, segments.flatten)

/-- The segments of each block sent one by one. -/
def separate (blocks : List (Direction × List (List UInt8))) : List (Direction × List UInt8) :=
  blocks.flatMap fun (d, segments) => segments.map fun segment => (d, segment)

theorem stream_separate (blocks : List (Direction × List (List UInt8))) (d : Direction) :
    stream (separate blocks) d = stream (joined blocks) d := by
  induction blocks with
  | nil => rfl
  | cons block blocks ih =>
    rw [separate, List.flatMap_cons, stream_append, stream_same, joined, List.map_cons, stream_cons]
    exact congrArg _ ih

theorem Exchange.run_same (listens : Direction → Bool) (s : Exchange) (d : Direction)
    (segments : List (List UInt8)) :
    s.run listens (segments.map fun segment => (d, segment)) =
      s.takeAll listens d segments.flatten := by
  rw [Exchange.takeAll_flatten, Exchange.run, List.foldl_map]

theorem Exchange.run_separate (listens : Direction → Bool) (s : Exchange)
    (blocks : List (Direction × List (List UInt8))) :
    s.run listens (separate blocks) = s.run listens (joined blocks) := by
  induction blocks generalizing s with
  | nil => rfl
  | cons block blocks ih =>
    rw [separate, List.flatMap_cons, Exchange.run_append, Exchange.run_same]
    exact ih _

/-- In a run without a message that cannot be framed, segments and size bound make no difference. -/
theorem run_resegmented {α : Type} [Holds α Progress] {e : Engine α Tally}
    (http : e.registry.IsHttp) (port : UInt16) (bound bound' : UInt32)
    (blocks : List (Direction × List (List UInt8)))
    (small : ∀ d, (stream (joined blocks) d).length < 2 ^ 31)
    (framed : ∀ call ∈ ((Host.openOn (e.withBound bound) port).run (joined blocks)).calls,
      setsError call = false) :
    let r := (Host.openOn (e.withBound bound) port).run (joined blocks)
    let r' := (Host.openOn (e.withBound bound') port).run (separate blocks)
    (∀ d, r'.messages d = r.messages d ∧ r'.unfinished d = r.unfinished d ∧
      (r'.host.session.lane d).status = (r.host.session.lane d).status ∧
      progress? r'.host.session d = progress? r.host.session d) ∧
      r'.host.session.raised = r.host.session.raised := by
  intro r r'
  have small' : ∀ d, (stream (separate blocks) d).length < 2 ^ 31 := fun d => by
    rw [stream_separate]
    exact small d
  obtain ⟨kept, fails⟩ := Host.run_follows (http.withBound bound) port small
  obtain ⟨kept', -⟩ := Host.run_follows (http.withBound bound') port small'
  have running :
      (({} : Exchange).run (e.registry.listens port) (joined blocks)).failed = false := by
    cases failed : (({} : Exchange).run (e.registry.listens port) (joined blocks)).failed with
    | false => rfl
    | true =>
      obtain ⟨call, made, error⟩ := (fails failed).error
      rw [framed call made] at error
      cases error
  have same := Exchange.run_separate (e.registry.listens port) {} blocks
  have running' : (({} : Exchange).run (e.registry.listens port) (separate blocks)).failed =
      false := by rw [same, running]
  have one := kept running
  have two := kept' running'
  rw [show ({} : Exchange).run ((e.withBound bound').registry.listens port) (separate blocks) =
    ({} : Exchange).run ((e.withBound bound).registry.listens port) (joined blocks)
      from same] at two
  refine ⟨fun d => ⟨?_, ?_, ?_, ?_⟩, ?_⟩
  · exact (two.messages d).trans (one.messages d).symm
  · exact (two.unfinished d).trans (one.unfinished d).symm
  · exact (two.status d).trans (one.status d).symm
  · exact (two.progress? d).trans (one.progress? d).symm
  · exact two.host.raised.trans one.host.raised.symm

/-- A request that is sent in two pieces, the second of which begins inside a line end; no queue
holds it as a whole under the smaller bound. -/
theorem run_resegmented_request :
    let e := Engine.ofRegistry (Registry.httpOn 80)
    let blocks := [(Direction.toServer,
      ["GET / HTTP/1.1\r".toUTF8.toList, "\nContent-Length: 2\r\n\r\nhi".toUTF8.toList])]
    let r := (Host.openOn (e.withBound 65280) 80).run (joined blocks)
    let r' := (Host.openOn (e.withBound 4) 80).run (separate blocks)
    r.messages .toServer = [(stream (joined blocks) .toServer)] ∧
      (∀ d, r'.messages d = r.messages d ∧ r'.unfinished d = r.unfinished d ∧
        (r'.host.session.lane d).status = (r.host.session.lane d).status ∧
        progress? r'.host.session d = progress? r.host.session d) ∧
      r'.host.session.raised = r.host.session.raised := by
  intro e blocks r r'
  refine ⟨by decide +kernel, ?_⟩
  exact run_resegmented (Registry.isHttp_httpOn 80) 80 65280 4 blocks
    (by intro d; cases d <;> decide +kernel) (by decide +kernel)

end StreamFraming
