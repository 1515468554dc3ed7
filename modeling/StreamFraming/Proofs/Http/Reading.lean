import StreamFraming.Http.Progress
import StreamFraming.Proofs.Http.Rows

/-!
# Reading up to a decision

`read` takes bytes one at a time up to the first decision and leaves the rest. A scan of a window is
a reading of its bytes (`scan_eq_read`), with or without a look at the bytes that are passed over;
so what follows is about `read` alone. A message that cannot be framed stays so (`error_read`).
-/

namespace StreamFraming.Http

namespace Progress

open Token

/-- Take bytes in turn up to the first decision; the second part is what was not taken. -/
def read (p : Progress) : List UInt8 → Turn × List UInt8
  | [] => ({ progress := p }, [])
  | c :: cs =>
    let t := p.readByte c
    if t.verdict = .search then
      let u := t.progress.read cs
      ({ u.1 with raised := t.raised ++ u.1.raised }, u.2)
    else (t, cs)

theorem read_cons_search {p : Progress} {c : UInt8} (h : (p.readByte c).verdict = .search)
    (cs : List UInt8) :
    p.read (c :: cs) =
      ({ ((p.readByte c).progress.read cs).1 with
          raised := (p.readByte c).raised ++ ((p.readByte c).progress.read cs).1.raised },
        ((p.readByte c).progress.read cs).2) := by
  simp [read, h]

theorem read_cons_decided {p : Progress} {c : UInt8} (h : (p.readByte c).verdict ≠ .search)
    (cs : List UInt8) : p.read (c :: cs) = (p.readByte c, cs) := by
  simp [read, h]

theorem read_suffix (p : Progress) (cs : List UInt8) : (p.read cs).2 <:+ cs := by
  induction cs generalizing p with
  | nil => exact List.suffix_refl []
  | cons c cs ih =>
    by_cases h : (p.readByte c).verdict = .search
    · rw [read_cons_search h]
      exact (ih _).trans (List.suffix_cons c cs)
    · rw [read_cons_decided h]
      exact List.suffix_cons c cs

theorem read_rest_of_search {p : Progress} {cs : List UInt8}
    (h : (p.read cs).1.verdict = .search) : (p.read cs).2 = [] := by
  induction cs generalizing p with
  | nil => rfl
  | cons c cs ih =>
    by_cases hc : (p.readByte c).verdict = .search
    · rw [read_cons_search hc] at h ⊢
      exact ih h
    · rw [read_cons_decided hc] at h
      exact absurd h hc

theorem read_rest_length {p : Progress} {cs : List UInt8}
    (h : (p.read cs).1.verdict ≠ .search) : (p.read cs).2.length < cs.length := by
  induction cs generalizing p with
  | nil => exact absurd rfl h
  | cons c cs ih =>
    by_cases hc : (p.readByte c).verdict = .search
    · rw [read_cons_search hc] at h ⊢
      exact Nat.lt_succ_of_lt (ih h)
    · rw [read_cons_decided hc]
      exact Nat.lt_succ_self _

theorem read_append_of_search {p : Progress} {a : List UInt8}
    (h : (p.read a).1.verdict = .search) (b : List UInt8) :
    p.read (a ++ b) =
      ((p.read a).1.andThen fun q => (q.read b).1, ((p.read a).1.progress.read b).2) := by
  induction a generalizing p with
  | nil => rfl
  | cons c cs ih =>
    by_cases hc : (p.readByte c).verdict = .search
    · rw [read_cons_search hc] at h
      rw [List.cons_append, read_cons_search hc, read_cons_search hc, ih h]
      simp only [Turn.andThen, List.append_assoc]
    · rw [read_cons_decided hc] at h
      exact absurd h hc

theorem read_append_of_decided {p : Progress} {a : List UInt8}
    (h : (p.read a).1.verdict ≠ .search) (b : List UInt8) :
    p.read (a ++ b) = ((p.read a).1, (p.read a).2 ++ b) := by
  induction a generalizing p with
  | nil => exact absurd rfl h
  | cons c cs ih =>
    by_cases hc : (p.readByte c).verdict = .search
    · rw [read_cons_search hc] at h
      rw [List.cons_append, read_cons_search hc, read_cons_search hc, ih h]
    · rw [List.cons_append, read_cons_decided hc, read_cons_decided hc]

/-- Where all bytes are taken, no decision falls before the last one. -/
theorem search_of_rest_nil {p : Progress} {a b : List UInt8} (whole : (p.read (a ++ b)).2 = [])
    (more : b ≠ []) : (p.read a).1.verdict = .search := by
  by_contra decided
  rw [read_append_of_decided decided] at whole
  exact more (List.append_eq_nil_iff.mp whole).2

/-! ### Readings without a verdict and without an anomaly -/

/-- The bytes lead from `p` to `q`, and nothing else comes of them. -/
def Quiet (p : Progress) (cs : List UInt8) (q : Progress) : Prop :=
  p.read cs = ({ progress := q }, [])

theorem quiet_nil (p : Progress) : Quiet p [] p := rfl

theorem quiet_cons {p q r : Progress} {c : UInt8} {cs : List UInt8}
    (first : p.readByte c = { progress := q }) (rest : Quiet q cs r) : Quiet p (c :: cs) r := by
  unfold Quiet at *
  rw [read_cons_search (by rw [first])]
  rw [first]
  simp [rest]

theorem quiet_single {p q : Progress} {c : UInt8} (h : p.readByte c = { progress := q }) :
    Quiet p [c] q :=
  quiet_cons h (quiet_nil q)

theorem Quiet.read_append {p q : Progress} {a : List UInt8} (h : Quiet p a q) (b : List UInt8) :
    p.read (a ++ b) = q.read b := by
  unfold Quiet at h
  rw [read_append_of_search (by rw [h]), h]
  rfl

theorem Quiet.append {p q r : Progress} {a b : List UInt8} (first : Quiet p a q)
    (rest : Quiet q b r) : Quiet p (a ++ b) r := by
  unfold Quiet
  rw [first.read_append]
  exact rest

/-! ### What reading keeps -/

section Turning

variable {K : Progress → Prop} {T : Turn → Prop}
  (token : ∀ {p : Progress} c, K p → T (p.stepToken c))
  (onward : ∀ {p : Progress} c, K p → (p.stepToken lineFeed).verdict = .search →
    T ((p.stepToken lineFeed).andThen fun p => p.stepToken c))
  (ended : ∀ {p : Progress}, K p → T p.endHeaders)
  (last : ∀ {p : Progress}, K p → T ((p.stepToken lineFeed).andThen endHeaders))
  (moved : ∀ {t : Turn} line, T t → T { t with progress := { t.progress with line } })
  (still : ∀ {p : Progress}, K p → T { progress := p })
  (seen : ∀ {p : Progress}, K p → K (p.mark fun f => { f with seenEol := true }))

include token onward ended last moved still seen

/-- A turn takes one byte or two through the table, or ends the head. -/
theorem readByte_turns {p : Progress} (h : K p) (c : UInt8) : T (p.readByte c) := by
  have inLine : T (p.readInLine c) := by
    unfold readInLine
    split
    · exact token c h
    · split
      · simp only
        split
        · exact last (seen h)
        · exact moved .afterEol (token lineFeed (seen h))
      · split
        · exact token lineFeed h
        · exact moved .afterEol (still h)
  have afterEol : T (p.readAfterEol c) := by
    unfold readAfterEol
    extract_lets first t
    have turn : T t := by
      simp only [t, first]
      split
      · exact last h
      · split
        · exact token space h
        · split
          · rename_i search
            exact onward c h search
          · exact token lineFeed h
    split
    · exact moved .inLine turn
    · exact turn
  unfold readByte
  split
  · exact still h
  · split
    · exact inLine
    · exact afterEol
    · split
      · exact ended h
      · exact moved .trailerLine (still h)
    · split
      · exact moved .trailerStart (still h)
      · exact still h

end Turning

/-- What the table, the end of the head and the line ends keep is kept by every byte. -/
theorem readByte_keeps {K : Progress → Prop}
    (stepped : ∀ p c, K p → K (p.stepToken c).progress)
    (ended : ∀ p : Progress, K p → K p.endHeaders.progress)
    (moved : ∀ (p : Progress) line, K p → K { p with line })
    (seen : ∀ p : Progress, K p → K (p.mark fun f => { f with seenEol := true })) {p : Progress}
    (h : K p) (c : UInt8) : K (p.readByte c).progress := by
  refine readByte_turns (T := fun t => K t.progress) ?_ ?_ ?_ ?_ ?_ ?_ ?_ h c
  · exact fun c h => stepped _ c h
  · exact fun c h _ => stepped _ c (stepped _ lineFeed h)
  · exact fun h => ended _ h
  · exact fun h => ended _ (stepped _ lineFeed h)
  · exact fun line h => moved _ line h
  · exact id
  · exact fun h => seen _ h

/-- What every byte does to its turn is done by bytes up to the first decision. -/
theorem read_turns {K : Progress → Prop} {T : Turn → Prop}
    (still : ∀ {p : Progress}, K p → T { progress := p })
    (taken : ∀ {p : Progress} c, K p → T (p.readByte c))
    (onward : ∀ {t : Turn}, T t → t.verdict = .search → K t.progress)
    (joined : ∀ {t u : Turn}, T t → t.verdict = .search → T u →
      T { u with raised := t.raised ++ u.raised }) {p : Progress} (h : K p) (cs : List UInt8) :
    T (p.read cs).1 := by
  induction cs generalizing p with
  | nil => exact still h
  | cons c cs ih =>
    have first := taken c h
    by_cases search : (p.readByte c).verdict = .search
    · rw [read_cons_search search]
      exact joined first search (ih (onward first search))
    · rw [read_cons_decided search]
      exact first

theorem read_keeps {K : Progress → Prop} (taken : ∀ p c, K p → K (p.readByte c).progress)
    {p : Progress} (h : K p) (cs : List UInt8) : K (p.read cs).1.progress := by
  refine read_turns (K := K) (T := fun t => K t.progress) ?_ ?_ ?_ ?_ h cs
  · exact id
  · exact fun c h => taken _ c h
  · exact fun h _ => h
  · exact fun _ _ later => later

/-! ### Errors stay -/

theorem error_note {p : Progress} (h : p.flags.error = true) (c : UInt8) (a : Action) :
    (p.note c a).progress.flags.error = true := by
  cases a <;> simp only [note, mark, h, if_true]
  case lengthChunk => split <;> rfl

theorem error_endHeaders {p : Progress} (h : p.flags.error = true) :
    p.endHeaders.progress.flags.error = true := by
  unfold endHeaders
  cases p.flags.post && !p.flags.chunked && !p.flags.hasLength <;> simp [mark, h]

theorem error_readByte {p : Progress} (h : p.flags.error = true) (c : UInt8) :
    (p.readByte c).progress.flags.error = true := by
  refine readByte_keeps (K := fun p => p.flags.error = true) ?_ ?_ ?_ ?_ h c
  · intro p c h
    unfold stepToken
    exact error_note (by exact h) _ _
  · exact fun p h => error_endHeaders h
  · exact fun p line h => h
  · exact fun p h => h

theorem error_read {p : Progress} (h : p.flags.error = true) (cs : List UInt8) :
    (p.read cs).1.progress.flags.error = true :=
  read_keeps (K := fun p => p.flags.error = true) (fun _ c h => error_readByte h c) h cs

theorem error_of_read {p : Progress} {cs : List UInt8}
    (h : (p.read cs).1.progress.flags.error = false) : p.flags.error = false := by
  cases error : p.flags.error with
  | false => rfl
  | true =>
    rw [error_read error] at h
    cases h

/-! ### Scans are readings -/

theorem scanEachFrom_eq_read (fromClient : Bool) (window : List UInt8) (p : Progress)
    (raised : List Anomaly) (n : Nat) (cs : List UInt8) :
    scanEachFrom fromClient window p raised n cs =
      if (p.read cs).1.verdict = .search then
        { progress := (p.read cs).1.progress, consumed := n + cs.length,
          raised := raised ++ (p.read cs).1.raised }
      else
        settle fromClient window (n + (cs.length - (p.read cs).2.length))
          { (p.read cs).1 with raised := raised ++ (p.read cs).1.raised } := by
  induction cs generalizing p raised n with
  | nil => simp [scanEachFrom, read]
  | cons c cs ih =>
    unfold scanEachFrom
    by_cases hc : (p.readByte c).verdict = .search
    · have shorter := (read_suffix (p.readByte c).progress cs).length_le
      simp only [hc, if_true]
      rw [ih, read_cons_search hc]
      simp only [List.append_assoc, List.length_cons]
      rw [show n + 1 + cs.length = n + (cs.length + 1) by omega,
        show n + 1 + (cs.length - ((p.readByte c).progress.read cs).2.length) =
          n + (cs.length + 1 - ((p.readByte c).progress.read cs).2.length) by omega]
    · simp only [hc, if_false, read_cons_decided hc, List.length_cons]
      rw [show n + (cs.length + 1 - cs.length) = n + 1 by omega]

theorem readByte_of_passesLine {p : Progress} {c : UInt8} (h : p.passesLine = true)
    (inside : c ≠ lineFeed) : p.readByte c = { progress := p } := by
  simp only [passesLine, Bool.and_eq_true, beq_iff_eq] at h
  obtain ⟨line, position⟩ := h
  unfold readByte
  split
  · rfl
  · simp only [line, readInLine, ne_eq, inside, not_false_eq_true, if_true, stepToken, position,
      step_skipLine, if_false, note]
    obtain ⟨length, flags, place, phase⟩ := p
    subst line position
    rfl

theorem scanEachFrom_toLineEnd (fromClient : Bool) (window : List UInt8) {p : Progress}
    (h : p.passesLine = true) (raised : List Anomaly) (n : Nat) (cs : List UInt8) :
    scanEachFrom fromClient window p raised n cs =
      scanEachFrom fromClient window p raised (toLineEnd n cs).1 (toLineEnd n cs).2 := by
  induction cs generalizing n with
  | nil => rfl
  | cons c cs ih =>
    by_cases hc : c = lineFeed
    · simp only [toLineEnd, hc, if_true]
    · simp only [toLineEnd, hc, if_false]
      rw [← ih, scanEachFrom, readByte_of_passesLine h hc]
      simp

/-- Passing over the rest of a line is reading it. -/
theorem scanFrom_eq_scanEachFrom (fromClient : Bool) (window : List UInt8) (p : Progress)
    (raised : List Anomaly) (n : Nat) (cs : List UInt8) :
    scanFrom fromClient window p raised n cs =
      scanEachFrom fromClient window p raised n cs := by
  induction hk : cs.length using Nat.strongRecOn generalizing p raised n cs with
  | _ k ih =>
    have passed : scanEachFrom fromClient window p raised n cs =
        scanEachFrom fromClient window p raised
          (if p.passesLine then toLineEnd n cs else (n, cs)).1
          (if p.passesLine then toLineEnd n cs else (n, cs)).2 := by
      split
      · rename_i h
        exact scanEachFrom_toLineEnd fromClient window h raised n cs
      · rfl
    have shorter : (if p.passesLine then toLineEnd n cs else (n, cs)).2.length ≤ cs.length := by
      split
      · have kept := length_toLineEnd n cs
        have ahead := le_toLineEnd n cs
        omega
      · exact Nat.le_refl _
    rw [passed]
    unfold scanFrom
    split
    · rename_i m h
      rw [h]
      rfl
    · rename_i m c rest h
      rw [h] at shorter
      conv => rhs; rw [h, scanEachFrom]
      simp only
      split
      · exact ih rest.length (by simp only [List.length_cons] at shorter; omega) _ _ _ _ rfl
      · rfl

theorem scan_eq_scanEach (p : Progress) (fromClient : Bool) (window : List UInt8) :
    p.scan fromClient window = p.scanEach fromClient window :=
  scanFrom_eq_scanEachFrom fromClient window p [] 0 window

/-- A scan reads the window up to the first decision. -/
theorem scan_eq_read (p : Progress) (fromClient : Bool) (window : List UInt8) :
    p.scan fromClient window =
      if (p.read window).1.verdict = .search then
        { progress := (p.read window).1.progress, consumed := window.length,
          raised := (p.read window).1.raised }
      else
        settle fromClient window (window.length - (p.read window).2.length)
          (p.read window).1 := by
  rw [scan_eq_scanEach, scanEach, scanEachFrom_eq_read]
  simp only [List.nil_append, Nat.zero_add]

section

variable (p : Progress) (fromClient : Bool) (window : List UInt8)

theorem scan_verdict : (p.scan fromClient window).verdict = (p.read window).1.verdict := by
  rw [scan_eq_read]
  split
  · rename_i search
    exact search.symm
  · unfold settle
    split <;> rfl

theorem scan_raised : (p.scan fromClient window).raised = (p.read window).1.raised := by
  rw [scan_eq_read]
  split
  · rfl
  · unfold settle
    split <;> rfl

theorem scan_error : (p.scan fromClient window).progress.flags.error =
    (p.read window).1.progress.flags.error := by
  rw [scan_eq_read]
  split
  · rfl
  · unfold settle
    split
    · rfl
    · rename_i sound
      rw [Bool.not_eq_true] at sound
      rw [sound]
      simp only
      split
      · exact sound
      · cases fromClient <;> rfl

theorem scan_progress (kept : (p.read window).1.verdict = .search ∨
      (p.read window).1.progress.flags.error = true) :
    (p.scan fromClient window).progress = (p.read window).1.progress := by
  rw [scan_eq_read]
  split
  · rfl
  · rename_i decided
    unfold settle
    rw [if_pos (kept.resolve_left decided)]

end

/-- A decision of a scan has a point behind its first byte. -/
theorem point_scan_ne_zero {p : Progress} {fromClient : Bool} {window : List UInt8}
    (short : window.length < 2 ^ 31) (decided : (p.scan fromClient window).verdict ≠ .search) :
    (p.scan fromClient window).point ≠ 0 := by
  rw [scan_eq_read] at decided ⊢
  split at decided
  · exact absurd rfl decided
  · rename_i settled
    have taken := read_rest_length settled
    rw [if_neg settled, ne_eq, ← UInt32.toNat_inj, UInt32.toNat_zero]
    unfold settle
    split
    · rw [Length.toNat_ofNat]
      omega
    · rw [Length.toNat_add, Length.toNat_toUInt32 (by omega)]
      omega

/-- A scan that is decided where its first bytes end. -/
theorem scan_decided {p : Progress} {head rest : List UInt8} {t : Turn}
    (read : p.read (head ++ rest) = (t, rest)) (decided : t.verdict ≠ .search)
    (fromClient : Bool) :
    p.scan fromClient (head ++ rest) = settle fromClient (head ++ rest) head.length t := by
  rw [scan_eq_read, read, if_neg decided, List.length_append, Nat.add_sub_cancel]

end Progress

/-! ### Windows that are read alike -/

/-- The scan with `n` more bytes in front of its window that come to nothing. -/
def Scan.delayed (s : Scan) (n : Nat) : Scan :=
  { s with
    point := if s.verdict = .search then s.point else Length.add s.point n.toUInt32
    consumed := s.consumed + n }

@[simp] theorem Scan.delayed_zero (s : Scan) : s.delayed 0 = s := by
  have still : Length.add s.point (Nat.toUInt32 0) = s.point := by
    have small := s.point.toNat_lt
    apply UInt32.toNat_inj.mp
    rw [Length.toNat_add, Length.toNat_toUInt32 (by decide)]
    omega
  rw [delayed, still, ite_self]
  rfl

/-- Turns that are the same, or that end a message alike. -/
structure Turn.Alike (t t' : Turn) : Prop where
  verdict : t'.verdict = t.verdict
  raised : t'.raised = t.raised
  error : t'.progress.flags.error = t.progress.flags.error
  length : t'.progress.length = t.progress.length
  head : (t'.progress.flags.noBody && t'.progress.flags.request) =
    (t.progress.flags.noBody && t.progress.flags.request)
  /-- Nothing else is kept of a progress where a message ends. -/
  kept : t.verdict = .search ∨ t.verdict = .skip ∨ t.progress.flags.error = true →
    t'.progress = t.progress

theorem Turn.Alike.refl (t : Turn) : t.Alike t := ⟨rfl, rfl, rfl, rfl, rfl, fun _ => rfl⟩

theorem Turn.Alike.trans {t t' t'' : Turn} (first : t.Alike t') (next : t'.Alike t'') :
    t.Alike t'' where
  verdict := next.verdict.trans first.verdict
  raised := next.raised.trans first.raised
  error := next.error.trans first.error
  length := next.length.trans first.length
  head := next.head.trans first.head
  kept h := (next.kept (by rwa [first.verdict, first.error])).trans (first.kept h)

namespace Progress

variable {window window' : List UInt8} {n m : Nat}

theorem settle_alike (fromClient : Bool) {t t' : Turn} (alike : t.Alike t')
    (decided : t.verdict ≠ .search) {consumed consumed' : Nat}
    (windows : window.length + n = window'.length + m)
    (taken : consumed + n = consumed' + m) (small : consumed + n < 2 ^ 32) :
    (settle fromClient window consumed t).delayed n =
      (settle fromClient window' consumed' t').delayed m := by
  unfold settle Scan.delayed
  by_cases spoilt : t.progress.flags.error = true
  · have point : Length.add (Length.ofNat window.length) n.toUInt32 =
        Length.add (Length.ofNat window'.length) m.toUInt32 := by
      apply UInt32.toNat_inj.mp
      rw [Length.toNat_add, Length.toNat_add, Length.toNat_ofNat, Length.toNat_ofNat,
        Length.toNat_toUInt32 (by omega), Length.toNat_toUInt32 (by omega)]
      omega
    have same := alike.kept (.inr (.inr spoilt))
    simp only [same, if_pos spoilt, if_neg decided, point, taken, alike.verdict, alike.raised]
  · have spoilt' : ¬ t'.progress.flags.error = true := by rwa [alike.error]
    have point : Length.add (Length.add t.progress.length consumed.toUInt32) n.toUInt32 =
        Length.add (Length.add t'.progress.length consumed'.toUInt32) m.toUInt32 := by
      apply UInt32.toNat_inj.mp
      rw [Length.toNat_add, Length.toNat_add, Length.toNat_add, Length.toNat_add, alike.length,
        Length.toNat_toUInt32 (by omega), Length.toNat_toUInt32 (by omega),
        Length.toNat_toUInt32 (by omega), Length.toNat_toUInt32 (by omega)]
      omega
    have progress : (if t.verdict = .skip then t.progress else fresh fromClient) =
        if t'.verdict = .skip then t'.progress else fresh fromClient := by
      rw [alike.verdict]
      split
      · rename_i skip
        exact (alike.kept (.inr (.inl skip))).symm
      · rfl
    simp only [if_neg spoilt, if_neg spoilt', if_neg decided, point, taken, progress, alike.head,
      alike.verdict, alike.raised]

/-- Windows that are read alike are scanned alike, but for the bytes that one has more. -/
theorem scan_alike {p p' : Progress} (fromClient : Bool)
    (alike : (p.read window).1.Alike (p'.read window').1)
    (rest : (p'.read window').2 = (p.read window).2)
    (windows : window.length + n = window'.length + m)
    (small : (p.scan fromClient window).consumed + n < 2 ^ 32) :
    (p.scan fromClient window).delayed n = (p'.scan fromClient window').delayed m := by
  rw [scan_eq_read] at small ⊢
  rw [scan_eq_read, alike.verdict, rest]
  by_cases search : (p.read window).1.verdict = .search
  · rw [if_pos search, if_pos search]
    simp only [Scan.delayed, if_true, windows, alike.kept (.inl search), alike.raised]
  · have shorter := (read_suffix p window).length_le
    have shorter' := (read_suffix p' window').length_le
    rw [rest] at shorter'
    have taken : (settle fromClient window (window.length - (p.read window).2.length)
        (p.read window).1).consumed = window.length - (p.read window).2.length := by
      unfold settle
      split <;> rfl
    rw [if_neg search, taken] at small
    rw [if_neg search, if_neg search]
    exact settle_alike fromClient alike search windows (by omega) small

theorem scan_delayed {p p' : Progress} (fromClient : Bool)
    (same : p'.read window' = p.read window) (longer : window'.length = window.length + n)
    (small : (p.scan fromClient window).consumed + n < 2 ^ 32) :
    p'.scan fromClient window' = (p.scan fromClient window).delayed n := by
  have alike : (p.read window).1.Alike (p'.read window').1 := by
    rw [same]
    exact .refl _
  have scans := scan_alike (m := 0) fromClient alike (by rw [same]) longer.symm small
  rw [Scan.delayed_zero] at scans
  exact scans.symm

end Progress

end StreamFraming.Http
