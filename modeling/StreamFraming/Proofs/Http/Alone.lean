import StreamFraming.Catalogue
import StreamFraming.Proofs.Contests
import StreamFraming.Proofs.Http.Reading
import StreamFraming.Setup

/-!
# The HTTP scanner alone

A registry that knows the HTTP scanner only, without a cap on its bytes. A race is then one reading
of the window (`contest_eq`), and the cells of a direction hold one progress or none (`cells`).
-/

namespace StreamFraming

open Http Holds

variable {α : Type} [Holds α Progress]

/-- The registry knows the HTTP scanner without a cap, and no other. -/
structure Registry.IsHttp (r : Registry α Tally) : Prop where
  scanners : r.scanners = [Http.scanner 0]
  bound : ∀ x id, (r.binding x).scanners.contains id = true → id = 0

namespace Registry

/-- Whether a direction is read on a port. -/
def listens (r : Registry α Tally) (port : UInt16) (d : Direction) : Bool :=
  (r.binding ⟨port, d⟩).scanners.contains 0

theorem IsHttp.eligible {r : Registry α Tally} (h : r.IsHttp) (port : UInt16) (d : Direction) :
    (r.binding ⟨port, d⟩).scanners =
      if r.listens port d then .singleton 0 else .empty := by
  apply ScannerSet.ext
  intro id
  by_cases zero : id = 0
  · subst zero
    unfold listens
    cases (r.binding ⟨port, d⟩).scanners.contains 0 <;> decide
  · have unknown : (r.binding ⟨port, d⟩).scanners.contains id = false := by
      cases known : (r.binding ⟨port, d⟩).scanners.contains id with
      | false => rfl
      | true => exact absurd (h.bound _ _ known) zero
    rw [unknown]
    split
    · simp [ScannerSet.contains_singleton, zero]
    · simp

theorem IsHttp.scanner?_zero {r : Registry α Tally} (h : r.IsHttp) :
    r.scanner? 0 = some (Http.scanner 0) := by
  simp [Registry.scanner?, h.scanners]

theorem IsHttp.known {r : Registry α Tally} (h : r.IsHttp) {id : Nat} {s : Scanner α Tally}
    (known : r.scanner? id = some s) : id = 0 ∧ s = Http.scanner 0 := by
  rw [Registry.scanner?, h.scanners] at known
  cases id with
  | zero =>
    cases known
    exact ⟨rfl, rfl⟩
  | succ id => cases known

omit [Holds α Progress] in
/-- Bindings with the id zero alone have it alone after one more scanner of that id. -/
theorem eq_zero_of_bind {r r' : Registry α Tally} {x : Endpoint} {auto : Bool}
    (only : ∀ x id, (r.binding x).scanners.contains id = true → id = 0)
    (bound : r'.bindings = bind x 0 auto r.bindings) (y : Endpoint) (id : Nat)
    (inside : (r'.binding y).scanners.contains id = true) : id = 0 := by
  simp only [binding, bound, lookup_bind] at inside
  split at inside
  · simp only [Option.getD_some, ScannerSet.contains_insert, Bool.or_eq_true, Bool.and_eq_true,
      beq_iff_eq] at inside
    exact inside.elim (only x id) And.left
  · exact only y id inside

theorem IsHttp.register {r r' : Registry α Tally} (h : r.IsHttp) {x : Endpoint} {auto : Bool}
    {id : Nat} (done : register x (Http.scanner 0) auto r = .ok id r') : r'.IsHttp := by
  have known : r.idOf? (Http.scanner 0 : Scanner α Tally).name = some 0 := by
    simp [Registry.idOf?, h.scanners]
  obtain ⟨_, _, same, bound, -, how⟩ | ⟨failed, -⟩ := register_cases r x (Http.scanner 0) auto
  · obtain ⟨rfl, rfl⟩ := EStateM.Result.ok.inj (done.symm.trans same)
    obtain ⟨found, kept⟩ | ⟨new, -⟩ := how
    · obtain rfl := Option.some.inj (known.symm.trans found)
      exact ⟨kept.trans h.scanners, eq_zero_of_bind h.bound bound⟩
    · rw [known] at new
      cases new
  · rw [done] at failed
    cases failed

theorem isHttp_of_register_empty {bound : UInt32} {r : Registry α Tally} {x : Endpoint}
    {auto : Bool} {id : Nat}
    (done : register x (Http.scanner 0) auto (Registry.empty.withMaxFlushPoint bound) = .ok id r) :
    r.IsHttp := by
  let start : Registry α Tally := Registry.empty.withMaxFlushPoint bound
  have new : start.idOf? (Http.scanner 0 : Scanner α Tally).name = none := rfl
  have unbound (x : Endpoint) (id : Nat)
      (inside : (start.binding x).scanners.contains id = true) : id = 0 := by
    rw [show (start.binding x).scanners = .empty from rfl, ScannerSet.contains_empty] at inside
    cases inside
  obtain ⟨_, _, same, bound, -, how⟩ | ⟨-, -, full⟩ :=
    register_cases start x (Http.scanner 0) auto
  · obtain ⟨rfl, rfl⟩ := EStateM.Result.ok.inj (done.symm.trans same)
    obtain ⟨found, -⟩ | ⟨-, -, rfl, scanners⟩ := how
    · rw [new] at found
      cases found
    · exact ⟨scanners, eq_zero_of_bind unbound bound⟩
  · cases full

omit [Holds α Progress] in
/-- What a registration keeps is kept by registrations in turn. -/
theorem registerAll_keeps {I : Registry α Tally → Prop} {r r' : Registry α Tally}
    {s : Scanner α Tally} {auto : Bool} {es : List Endpoint}
    (kept : ∀ {r r' x id}, I r → Registry.register x s auto r = .ok id r' → I r') (h : I r)
    (done : registerAll s auto es r = .ok () r') : I r' := by
  induction es generalizing r with
  | nil =>
    cases done
    exact h
  | cons x es ih =>
    simp only [registerAll, Bind.bind, EStateM.bind] at done
    cases found : Registry.register x s auto r with
    | ok id next =>
      rw [found] at done
      exact ih (kept h found) done
    | error error next =>
      rw [found] at done
      cases done

/-- The token table is sound, so that only the settings and the registrations can be refused. -/
theorem ofSettings_eq (s : Settings) :
    (ofSettings s : Except RegistryError (Registry α Tally)) =
      let start := Registry.empty.withMaxFlushPoint s.maxFlushPoint
      match s.validate with
      | .error error => .error (.settings error)
      | .ok _ =>
        if s.http.enabled then
          match registerAll (Http.scanner s.http.byteCap) s.http.autoActivate s.http.endpoints
              start with
          | .ok _ r => .ok r
          | .error error _ => .error error
        else .ok start := by
  unfold ofSettings
  rw [Http.scanner?_eq]
  cases s.validate with
  | error e => rfl
  | ok _ => cases s.http.enabled <;> rfl

theorem registerAll_of_ofSettings {s : Settings} {r : Registry α Tally}
    (made : Registry.ofSettings s = .ok r) :
    let start := Registry.empty.withMaxFlushPoint s.maxFlushPoint
    if s.http.enabled then
      registerAll (Http.scanner s.http.byteCap) s.http.autoActivate s.http.endpoints start =
        .ok () r
    else r = start := by
  rw [ofSettings_eq] at made
  cases valid : s.validate with
  | error e =>
    rw [valid] at made
    cases made
  | ok _ =>
    cases enabled : s.http.enabled with
    | false =>
      simp only [valid, enabled, Bool.false_eq_true, if_false] at made ⊢
      exact (Except.ok.inj made).symm
    | true =>
      simp only [valid, enabled, if_true] at made ⊢
      split at made
      · rename_i done
        exact done.trans (by rw [Except.ok.inj made])
      · cases made

theorem isHttp_of_ofSettings {s : Settings} {r : Registry α Tally}
    (made : Registry.ofSettings s = .ok r) (enabled : s.http.enabled = true)
    (uncapped : s.http.byteCap = 0) (used : s.http.endpoints ≠ []) : r.IsHttp := by
  have done := registerAll_of_ofSettings made
  obtain ⟨x, es, endpoints⟩ := List.exists_cons_of_ne_nil used
  rw [if_pos enabled, uncapped, endpoints] at done
  simp only [registerAll, Bind.bind, EStateM.bind] at done
  split at done
  · rename_i found
    exact registerAll_keeps (fun h done => IsHttp.register h done)
      (isHttp_of_register_empty found) done
  · cases done

/-- The registry knows the HTTP scanner with a cap at most. -/
def OnlyHttp (r : Registry α Tally) (cap : UInt32) : Prop :=
  r.scanners = [] ∨ r.scanners = [Http.scanner cap]

theorem IsHttp.only {r : Registry α Tally} (h : r.IsHttp) : r.OnlyHttp 0 := .inr h.scanners

theorem OnlyHttp.known {r : Registry α Tally} {cap : UInt32} (h : r.OnlyHttp cap) {id : Nat}
    {s : Scanner α Tally} (known : r.scanner? id = some s) : id = 0 ∧ s = Http.scanner cap := by
  rw [Registry.scanner?] at known
  rcases h with unused | one
  · rw [unused] at known
    cases known
  · rw [one] at known
    cases id with
    | zero =>
      cases known
      exact ⟨rfl, rfl⟩
    | succ id => cases known

theorem OnlyHttp.register {r r' : Registry α Tally} {cap : UInt32} (h : r.OnlyHttp cap)
    {x : Endpoint} {auto : Bool} {id : Nat}
    (done : Registry.register x (Http.scanner cap) auto r = .ok id r') : r'.OnlyHttp cap := by
  obtain ⟨_, _, same, -, -, how⟩ | ⟨failed, -⟩ := register_cases r x (Http.scanner cap) auto
  · obtain ⟨rfl, rfl⟩ := EStateM.Result.ok.inj (done.symm.trans same)
    obtain ⟨-, kept⟩ | ⟨new, -, -, scanners⟩ := how
    · rwa [OnlyHttp, kept]
    · obtain unused | one := h
      · exact .inr (by rw [scanners, unused]; rfl)
      · rw [Registry.idOf?, one] at new
        simp at new
  · rw [done] at failed
    cases failed

/-- Settings describe no other scanner. -/
theorem onlyHttp_of_ofSettings {s : Settings} {r : Registry α Tally}
    (made : Registry.ofSettings s = .ok r) : r.OnlyHttp s.http.byteCap := by
  have done := registerAll_of_ofSettings made
  split at done
  · exact registerAll_keeps (I := fun r => r.OnlyHttp s.http.byteCap)
      (fun h done => h.register done) (.inl rfl) done
  · exact .inl (done ▸ rfl)

/-- HTTP on one port, both ways. -/
def httpOn (port : UInt16) : Registry Memo Tally where
  scanners := [Http.scanner 0]
  bindings :=
    [(⟨port, .toServer⟩, { scanners := .singleton 0 }),
      (⟨port, .toClient⟩, { scanners := .singleton 0 })]

theorem isHttp_httpOn (port : UInt16) : (httpOn port).IsHttp := by
  refine ⟨rfl, fun x id known => ?_⟩
  have only : (ScannerSet.singleton 0).contains id = true → id = 0 := by
    rw [ScannerSet.contains_singleton]
    exact fun h => of_decide_eq_true (Bool.and_eq_true_iff.mp h).1
  simp only [httpOn, binding, lookup] at known
  split at known
  · exact only known
  · split at known
    · exact only known
    · simp at known

end Registry

namespace Http

/-! ### Cells -/

/-- The cells of a direction that hold one progress, or none. -/
def cells (p : Option Progress) : Slots α := Slots.empty.update 0 (p.map keep)

theorem get?_cells (p : Option Progress) (id : Nat) :
    (cells p : Slots α).get? id = if 0 = id then p.map keep else none := by
  rw [cells, Slots.get?_update, Slots.get?_empty]

@[simp] theorem get?_cells_zero (p : Option Progress) :
    (cells p : Slots α).get? 0 = p.map keep := by
  rw [get?_cells, if_pos rfl]

theorem cells_none : (cells none : Slots α) = .empty :=
  Slots.ext_get? fun id => by simp [get?_cells]

@[simp] theorem update_cells (p q : Option Progress) :
    (cells p : Slots α).update 0 (q.map keep) = cells q :=
  Slots.ext_get? fun id => by
    rw [Slots.get?_update, get?_cells, get?_cells]
    split <;> rfl

theorem update_cells_some (p : Option Progress) (q : Progress) :
    (cells p : Slots α).update 0 (some (keep q)) = cells (some q) :=
  update_cells p (some q)

theorem erase_cells (p : Option Progress) (id : Nat) :
    (cells p : Slots α).erase id = cells (if id = 0 then none else p) := by
  refine Slots.ext_get? fun x => ?_
  rw [Slots.get?_erase, get?_cells, get?_cells]
  by_cases zero : id = 0
  · subst zero
    rw [if_pos rfl]
    split <;> rfl
  · rw [if_neg zero]
    by_cases same : id = x
    · rw [if_pos same, if_neg (same ▸ Ne.symm zero)]
    · rw [if_neg same]

theorem first?_cells (p : Option Progress) : (cells p : Slots α).first? Progress = p := by
  cases p with
  | none => rfl
  | some p => simp [cells, Slots.update, Slots.set, Slots.place, Slots.first?, Slots.empty]

/-! ### One scan -/

/-- The progress that a scan starts from. -/
def start (p : Option Progress) (fromClient : Bool) : Progress :=
  p.getD (Progress.fresh fromClient)

theorem claim_cell (p : Option Progress) (q : Progress) :
    Holds.claim q (p.map (keep (α := α))) = some (p.getD q) := by
  cases p <;> simp [Holds.claim]

theorem scan_uncapped (memory : Tally) (sight : Sight α) (window : List UInt8) :
    scan 0 memory sight window =
      match claim (Progress.fresh sight.marks.fromClient) sight.own with
      | none => .plain memory sight .abort 0
      | some p =>
        if p.flags.error then .plain memory { sight with own := some (keep p) } .abort 0
        else
          let s := p.scan sight.marks.fromClient window
          { verdict := s.verdict
            point := s.point
            own := some (keep s.progress)
            peer := if s.headDone then expectNoBody sight.peer else sight.peer
            memory := memory.count s.consumed
            raised := s.raised } := by
  cases claimed : claim (Progress.fresh sight.marks.fromClient) sight.own <;>
    simp [scan, claimed]

theorem scan_eq (memory : Tally) (sight : Sight α) (own peer : Option Progress)
    (hown : sight.own = own.map keep) (hpeer : sight.peer = peer.map keep)
    (sound : (start own sight.marks.fromClient).flags.error = false) (window : List UInt8) :
    scan 0 memory sight window =
      let s := (start own sight.marks.fromClient).scan sight.marks.fromClient window
      { verdict := s.verdict
        point := s.point
        own := some (keep s.progress)
        peer := (if s.headDone then
            some ((peer.getD Progress.response).mark fun f => { f with noBody := true })
          else peer).map keep
        memory := memory.count s.consumed
        raised := s.raised } := by
  unfold start at sound ⊢
  simp only [scan_uncapped, hown, claim_cell, sound, Bool.false_eq_true, if_false, hpeer,
    expectNoBody]
  split <;> rfl

/-- The scan left a message that cannot be framed. -/
def setsError (c : Call α Tally) : Bool :=
  (c.report.own.bind (kept? (τ := Progress))).any (·.flags.error)

end Http

namespace Field

/-- A race of the HTTP scanner alone. -/
theorem contest_lone {q : Inquiry α Tally} {f : Field α Tally} (http : q.registry.IsHttp)
    (eligible : f.lane.eligible = .singleton 0) (idx : UInt32) (data : List UInt8) :
    contest q idx data f =
      let answer := f.consult q ⟨f.lane.origin + idx, data⟩ 0 (Http.scanner 0)
      let g := answer.2
      let target := Length.add g.lane.target idx
      let move := if target ≤ q.total then Move.again target else .wait
      match answer.1 with
      | .search => (.wait, { g with lane := { g.lane with status := .search } })
      | .flush => (move, { g with lane := { g.lane with status := .flush, target } })
      | .skip => (move, { g with lane := { g.lane with status := .skip, target } })
      | .abort => (move, { g with lane := { g.lane.abort with target } }) :=
  contest_only (by decide) eligible http.scanner?_zero idx data

/-- What a scan of a window leaves, but for what the lane does next. -/
def scanned (f : Field α Tally) (s : Scan) (peer : Option Progress) (call : Call α Tally) :
    Field α Tally where
  lane := { f.lane with slots := cells (some s.progress), target := s.point }
  peer := cells (if s.headDone then
      some ((peer.getD Progress.response).mark fun g => { g with noBody := true })
    else peer)
  memories := f.memories.set 0 call.report.memory
  raised := f.raised ++ s.raised
  calls := call :: f.calls

/-- What a decided race leaves: the target, and what the lane does next. -/
def decided (f : Field α Tally) (status : Status) (target : UInt32) : Field α Tally :=
  { f with lane := { f.lane with status, target } }

theorem contest_eq {q : Inquiry α Tally} {f : Field α Tally} {own peer : Option Progress}
    (http : q.registry.IsHttp) (eligible : f.lane.eligible = .singleton 0)
    (hown : f.lane.slots = cells own) (hpeer : f.peer = cells peer)
    (sound : (start own q.marks.fromClient).flags.error = false) (idx : UInt32)
    (data : List UInt8) :
    ∃ call, call.report.verdict =
        ((start own q.marks.fromClient).scan q.marks.fromClient data).verdict ∧
      setsError call =
        ((start own q.marks.fromClient).scan q.marks.fromClient data).progress.flags.error ∧
      contest q idx data f =
        let s := (start own q.marks.fromClient).scan q.marks.fromClient data
        let g := f.scanned s peer call
        let target := Length.add s.point idx
        let move := if target ≤ q.total then Move.again target else .wait
        match s.verdict with
        | .search => (.wait, { g with lane := { g.lane with status := .search } })
        | .flush => (move, g.decided .flush target)
        | .skip => (move, g.decided .skip target)
        | .abort => (move, { g with lane := { g.lane.abort with target } }) := by
  generalize hs : (start own q.marks.fromClient).scan q.marks.fromClient data = s
  let memory := (f.memories.get? 0).getD (Http.scanner 0 : Scanner α Tally).memory
  let call := (Http.scanner 0 : Scanner α Tally).look memory 0 q.marks f.lane.slots f.peer
    ⟨f.lane.origin + idx, data⟩
  have report : call.report =
      { verdict := s.verdict
        point := s.point
        own := some (keep s.progress)
        peer := (if s.headDone then
            some ((peer.getD Progress.response).mark fun f => { f with noBody := true })
          else peer).map keep
        memory := memory.count s.consumed
        raised := s.raised } := by
    have read := scan_eq memory ⟨0, q.marks, f.lane.slots.get? 0, f.peer.get? 0⟩ own peer
      (by rw [hown, get?_cells_zero]) (by rw [hpeer, get?_cells_zero]) sound data
    rw [hs] at read
    exact read
  have ownCells : call.storeOwn f.lane.slots = cells (some s.progress) := by
    show f.lane.slots.update 0 call.report.own = _
    rw [report, hown, update_cells_some]
  have peerCells : call.storePeer f.peer = cells (if s.headDone then
      some ((peer.getD Progress.response).mark fun g => { g with noBody := true })
    else peer) := by
    show f.peer.update 0 call.report.peer = _
    rw [report, hpeer, update_cells]
  have consulted : f.consult q ⟨f.lane.origin + idx, data⟩ 0 (Http.scanner 0) =
      (s.verdict, f.scanned s peer call) := by
    show (call.report.verdict, (⟨{ f.lane with
        slots := call.storeOwn f.lane.slots, target := call.report.point },
      call.storePeer f.peer, f.memories.set 0 call.report.memory,
      f.raised ++ call.report.raised, call :: f.calls⟩ : Field α Tally)) = _
    rw [ownCells, peerCells, report, scanned, report]
  refine ⟨call, by rw [report], by simp [setsError, report], ?_⟩
  rw [contest_lone http eligible, consulted]
  simp only
  cases s.verdict <;> rfl

end Field

end StreamFraming
