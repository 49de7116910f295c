import Mathlib.Data.List.Infix

/-! Messages that are extracted from a stream while it arrives in parts. -/
namespace SignalIOS.Lib

/-- Finds the message that a buffer begins with, and the length that it uses, or `none` while the
message is incomplete. -/
structure Extractor (α μ ε : Type) where
  extract : List α → Except ε (Option (μ × ℕ))
  extract_nil : extract [] = .ok none
  used_pos {buffer : List α} {m : μ} {used : ℕ} : extract buffer = .ok (some (m, used)) → 0 < used
  used_le {buffer : List α} {m : μ} {used : ℕ} :
    extract buffer = .ok (some (m, used)) → used ≤ buffer.length
  /-- A message does not change when more arrives. -/
  extract_append {buffer : List α} {found : μ × ℕ} (more : List α) :
    extract buffer = .ok (some found) → extract (buffer ++ more) = .ok (some found)
  /-- It does not wait for more than it uses. -/
  extract_take {buffer : List α} {m : μ} {used : ℕ} :
    extract buffer = .ok (some (m, used)) → extract (buffer.take used) ≠ .ok none

namespace Extractor

variable {α μ ε : Type} (x : Extractor α μ ε) {buffer more stream rest : List α} {m : μ} {used : ℕ}
  {e : ε}

/-- The messages of a buffer, and what is left of it where nothing fails. -/
def drain (buffer : List α) : List μ × Except ε (List α) :=
  match _h : x.extract buffer with
  | .error e => ([], .error e)
  | .ok none => ([], .ok buffer)
  | .ok (some (m, used)) => (m :: (drain (buffer.drop used)).1, (drain (buffer.drop used)).2)
termination_by buffer.length
decreasing_by all_goals
  have hpos := x.used_pos _h
  have hle := x.used_le _h
  rw [List.length_drop]
  omega

/-- What has been extracted so far, and the buffer, when another part arrives. -/
def receive (s : List μ × Except ε (List α)) (data : List α) : List μ × Except ε (List α) :=
  match s.2 with
  | .error _ => s
  | .ok buffer => (s.1 ++ (x.drain (buffer ++ data)).1, (x.drain (buffer ++ data)).2)

def outcome (reads : List (List α)) : List μ × Except ε (List α) :=
  reads.foldl x.receive ([], .ok [])

/-- Where the messages of a stream begin when it is there as a whole. -/
inductive Start (stream : List α) : List α → Prop
  | first : Start stream stream
  | next {rest : List α} {m : μ} {used : ℕ} (hstart : Start stream rest)
      (hfound : x.extract rest = .ok (some (m, used))) : Start stream (rest.drop used)

/-- What fails while the stream arrives fails in the same way when it is complete. -/
def FailsEventually (stream : List α) : Prop :=
  ∀ buffer, buffer <+: stream → ∀ e, x.extract buffer = .error e → x.extract stream = .error e

/-- How the stream is split is of no consequence. -/
def SplitsAlike (stream : List α) : Prop :=
  ∀ reads reads' : List (List α), [] ∉ reads → [] ∉ reads' → reads.flatten = stream →
    reads'.flatten = stream → x.outcome reads = x.outcome reads'

section
variable {x}

theorem drain_error (h : x.extract buffer = .error e) : x.drain buffer = ([], .error e) := by
  unfold drain
  split <;> simp_all

theorem drain_none (h : x.extract buffer = .ok none) : x.drain buffer = ([], .ok buffer) := by
  unfold drain
  split <;> simp_all

theorem drain_some (h : x.extract buffer = .ok (some (m, used))) :
    x.drain buffer = (m :: (x.drain (buffer.drop used)).1, (x.drain (buffer.drop used)).2) := by
  conv_lhs => unfold drain
  split <;> simp_all

theorem receive_error (ms : List μ) (data : List α) :
    x.receive (ms, .error e) data = (ms, .error e) := rfl

/-- What was extracted earlier stays in front. -/
theorem receive_append (ms : List μ) (s : List μ × Except ε (List α)) (data : List α) :
    x.receive (ms ++ s.1, s.2) data = (ms ++ (x.receive s data).1, (x.receive s data).2) := by
  obtain ⟨ms', _ | buffer⟩ := s
  · rfl
  · simp only [receive, List.append_assoc]

theorem foldl_receive_append (ms : List μ) (s : List μ × Except ε (List α))
    (reads : List (List α)) :
    reads.foldl x.receive (ms ++ s.1, s.2) =
      (ms ++ (reads.foldl x.receive s).1, (reads.foldl x.receive s).2) := by
  induction reads generalizing s with
  | nil => rfl
  | cons data reads ih => rw [List.foldl_cons, List.foldl_cons, receive_append, ih]

theorem foldl_receive_error (ms : List μ) (reads : List (List α)) :
    reads.foldl x.receive (ms, .error e) = (ms, .error e) := by
  induction reads with
  | nil => rfl
  | cons data reads ih => rw [List.foldl_cons, receive_error, ih]

theorem drain_nil : x.drain [] = ([], .ok []) := drain_none x.extract_nil

theorem Start.trans {rest' : List α} (h : x.Start stream rest) (h' : x.Start rest rest') :
    x.Start stream rest' := by
  induction h' with
  | first => exact h
  | next _ hfound ih => exact ih.next hfound

theorem drop_append (h : x.extract buffer = .ok (some (m, used))) (more : List α) :
    (buffer ++ more).drop used = buffer.drop used ++ more :=
  List.drop_append_of_le_length (x.used_le h)

/-- What is left of a buffer is where the rest of the stream goes on. -/
theorem start_of_drain {left : List α} (h : (x.drain buffer).2 = .ok left) (more : List α) :
    x.Start (buffer ++ more) (left ++ more) := by
  fun_induction x.drain buffer with
  | case1 => cases h
  | case2 => cases h; exact .first
  | case3 buffer m used hfound ih =>
    have hnext : x.Start (buffer ++ more) (buffer.drop used ++ more) := by
      rw [← drop_append hfound]
      exact .next .first (x.extract_append more hfound)
    exact hnext.trans (ih h)

/-- One part more is received as if it had been there from the beginning. -/
theorem receive_drain
    (hstarts : ∀ rest, x.Start (buffer ++ more) rest → x.FailsEventually rest) :
    x.receive (x.drain buffer) more = x.drain (buffer ++ more) := by
  fun_induction x.drain buffer with
  | case1 buffer e hfail =>
    have hwhole := hstarts _ .first buffer (List.prefix_append _ _) e hfail
    rw [drain_error hwhole]
    rfl
  | case2 => rfl
  | case3 buffer m used hfound ih =>
    have hwhole := x.extract_append more hfound
    have hdrop := drop_append hfound more
    rw [drain_some hwhole, hdrop, ← ih]
    · exact receive_append [m] _ _
    · intro rest hrest
      exact hstarts rest (Start.trans (.next .first hwhole) (hdrop ▸ hrest))

theorem foldl_receive_drain (reads : List (List α))
    (hstarts : ∀ rest, x.Start (buffer ++ reads.flatten) rest → x.FailsEventually rest) :
    reads.foldl x.receive (x.drain buffer) = x.drain (buffer ++ reads.flatten) := by
  induction reads generalizing buffer with
  | nil => rw [List.flatten_nil, List.append_nil, List.foldl_nil]
  | cons data reads ih =>
    have hwhole := receive_drain hstarts
    rw [← hwhole, List.foldl_cons]
    rcases hdrain : x.drain buffer with ⟨ms, e | left⟩
    · rw [receive_error, receive_error, foldl_receive_error]
    · have hleft : x.Start (buffer ++ (data :: reads).flatten) (left ++ (data :: reads).flatten) :=
        start_of_drain (by rw [hdrain]) _
      simp only [receive]
      rw [foldl_receive_append, ih, List.flatten_cons, List.append_assoc]
      intro rest hrest
      rw [List.append_assoc, ← List.flatten_cons] at hrest
      exact hstarts rest (hleft.trans hrest)

theorem outcome_eq_drain {reads : List (List α)}
    (hstarts : ∀ rest, x.Start reads.flatten rest → x.FailsEventually rest) :
    x.outcome reads = x.drain reads.flatten := by
  unfold outcome
  rw [← drain_nil, foldl_receive_drain reads hstarts, List.nil_append]

theorem outcome_singleton : x.outcome [stream] = x.drain stream := rfl

theorem extract_of_drain (h : x.drain buffer = ([], .error e)) : x.extract buffer = .error e := by
  rcases hextract : x.extract buffer with e' | _ | ⟨m, used⟩
  · rw [drain_error hextract] at h
    cases h
    rfl
  · rw [drain_none hextract] at h
    cases h
  · rw [drain_some hextract] at h
    cases h

theorem SplitsAlike.failsEventually (h : x.SplitsAlike stream) : x.FailsEventually stream := by
  intro buffer hinitial e hfail
  obtain ⟨more, rfl⟩ := hinitial
  have hbuffer : buffer ≠ [] := by
    rintro rfl
    rw [x.extract_nil] at hfail
    cases hfail
  by_cases hmore : more = []
  · rw [hmore, List.append_nil]
    exact hfail
  · have hparts : x.outcome [buffer, more] = x.outcome [buffer ++ more] :=
      h _ _ (by simp [hbuffer, hmore, eq_comm]) (by simp [hbuffer]) (by simp) (by simp)
    have hfirst : x.outcome [buffer, more] = ([], .error e) := by
      have hbegin : x.receive ([], .ok []) buffer = x.drain buffer := rfl
      rw [outcome, List.foldl_cons, hbegin, drain_error hfail]
      rfl
    rw [hfirst, outcome_singleton] at hparts
    exact extract_of_drain hparts.symm

/-- Up to its end the stream holds the message as a whole. -/
theorem FailsEventually.extract_take (h : x.FailsEventually stream)
    (hfound : x.extract stream = .ok (some (m, used))) :
    x.extract (stream.take used) = .ok (some (m, used)) := by
  rcases hextract : x.extract (stream.take used) with e | _ | found
  · have hfail := h _ (List.take_prefix used stream) e hextract
    rw [hfound] at hfail
    cases hfail
  · exact absurd hextract (x.extract_take hfound)
  · have happend := x.extract_append (stream.drop used) hextract
    rw [List.take_append_drop, hfound] at happend
    exact happend.symm

theorem outcome_cons (hfound : x.extract buffer = .ok (some (m, used)))
    (hlength : buffer.length = used) (reads : List (List α)) :
    x.outcome (buffer :: reads) = (m :: (x.outcome reads).1, (x.outcome reads).2) := by
  subst hlength
  have hbegin : x.receive ([], .ok []) buffer = x.drain buffer := rfl
  rw [outcome, List.foldl_cons, hbegin, drain_some hfound, List.drop_length, drain_nil]
  exact foldl_receive_append [m] ([], .ok []) reads

theorem SplitsAlike.drop (h : x.SplitsAlike stream)
    (hfound : x.extract stream = .ok (some (m, used))) : x.SplitsAlike (stream.drop used) := by
  have hpos := x.used_pos hfound
  have hle := x.used_le hfound
  have hlength : (stream.take used).length = used := List.length_take_of_le hle
  have htake := h.failsEventually.extract_take hfound
  have hne : [] ≠ stream.take used := by
    intro hnil
    rw [← hnil] at hlength
    exact absurd hlength hpos.ne
  intro reads reads' hreads hreads' hflatten hflatten'
  have hboth := h (stream.take used :: reads) (stream.take used :: reads')
    (by simp [hne, hreads]) (by simp [hne, hreads'])
    (by rw [List.flatten_cons, hflatten, List.take_append_drop])
    (by rw [List.flatten_cons, hflatten', List.take_append_drop])
  rw [outcome_cons htake hlength, outcome_cons htake hlength, Prod.mk.injEq,
    List.cons.injEq] at hboth
  exact Prod.ext hboth.1.2 hboth.2

/-- Splitting is of no consequence exactly where no part of the stream fails that would not fail
in the whole. -/
theorem splitsAlike_iff :
    x.SplitsAlike stream ↔ ∀ rest, x.Start stream rest → x.FailsEventually rest := by
  constructor
  · intro h rest hstart
    have hrest : x.SplitsAlike rest := by
      induction hstart with
      | first => exact h
      | next _ hfound ih => exact ih.drop hfound
    exact hrest.failsEventually
  · intro h reads reads' _ _ hflatten hflatten'
    subst hflatten
    rw [outcome_eq_drain h, outcome_eq_drain (hflatten' ▸ h), hflatten']

/-- These bytes are the message, and none of them can be missing. -/
structure Carries (x : Extractor α μ ε) (bytes : List α) (m : μ) : Prop where
  found : x.extract bytes = .ok (some (m, bytes.length))
  waits : ∀ part, part <+: bytes → part ≠ bytes → x.extract part = .ok none

variable {bytes part : List α} {chunks : List (List α)} {ms : List μ}

/-- The beginning of a stream of messages ends within the first one, or goes on behind it. -/
theorem Carries.cases_of_prefix (h : x.Carries bytes m) (hpart : part <+: bytes ++ more) :
    (part.length < bytes.length ∧ x.extract part = .ok none) ∨
      ∃ later, part = bytes ++ later ∧ later <+: more ∧
        x.extract part = .ok (some (m, bytes.length)) := by
  rcases Nat.lt_or_ge part.length bytes.length with hlt | hge
  · left
    have hwithin : part <+: bytes :=
      List.prefix_of_prefix_length_le hpart (List.prefix_append bytes more) hlt.le
    have hne : part ≠ bytes := by
      rintro rfl
      exact absurd rfl hlt.ne
    exact ⟨hlt, h.waits part hwithin hne⟩
  · right
    obtain ⟨later, rfl⟩ : bytes <+: part :=
      List.prefix_of_prefix_length_le (List.prefix_append bytes more) hpart hge
    exact ⟨later, rfl, (List.prefix_append_right_inj bytes).mp hpart, x.extract_append later h.found⟩

/-- Nothing of a stream of messages fails. -/
theorem extract_ne_error (h : List.Forall₂ x.Carries chunks ms) (hpart : part <+: chunks.flatten) :
    x.extract part ≠ .error e := by
  intro herror
  cases h with
  | nil =>
    rw [List.prefix_nil.mp hpart, x.extract_nil] at herror
    cases herror
  | cons hfirst _ =>
    rcases hfirst.cases_of_prefix hpart with ⟨_, hnone⟩ | ⟨_, _, _, hsome⟩
    · rw [hnone] at herror
      cases herror
    · rw [hsome] at herror
      cases herror

/-- Wherever a message of it begins, the rest is a stream of messages again. -/
theorem Start.carries (h : List.Forall₂ x.Carries chunks ms) (hstream : stream <+: chunks.flatten)
    (hstart : x.Start stream rest) :
    ∃ chunks' ms', List.Forall₂ x.Carries chunks' ms' ∧ rest <+: chunks'.flatten := by
  induction hstart with
  | first => exact ⟨chunks, ms, h, hstream⟩
  | next _ hfound ih =>
    obtain ⟨chunks', ms', h', hrest⟩ := ih
    cases h' with
    | nil =>
      rw [List.prefix_nil.mp hrest, x.extract_nil] at hfound
      cases hfound
    | cons hfirst hlater =>
      rcases hfirst.cases_of_prefix hrest with ⟨_, hnone⟩ | ⟨later, rfl, hprefix, hsome⟩
      · rw [hnone] at hfound
        cases hfound
      · rw [hsome] at hfound
        cases hfound
        rw [List.drop_left]
        exact ⟨_, _, hlater, hprefix⟩

/-- As many messages as are there, and the beginning of the next one. -/
theorem drain_of_carries (h : List.Forall₂ x.Carries chunks ms) (hpart : part <+: chunks.flatten) :
    ∃ n rest, x.drain part = (ms.take n, .ok rest) ∧ part = (chunks.take n).flatten ++ rest ∧
      (∀ next ∈ chunks[n]?, rest.length < next.length) ∧ (chunks.length ≤ n → rest = []) := by
  induction h generalizing part with
  | nil =>
    obtain rfl := List.prefix_nil.mp hpart
    exact ⟨0, [], drain_nil, rfl, by simp, fun _ => rfl⟩
  | cons hfirst _ ih =>
    rcases hfirst.cases_of_prefix hpart with ⟨hlt, hnone⟩ | ⟨later, rfl, hprefix, hsome⟩
    · refine ⟨0, part, drain_none hnone, rfl, ?_, ?_⟩
      · intro next hnext
        rwa [← Option.some.inj hnext]
      · intro hlength
        cases hlength
    · obtain ⟨n, rest, hdrain, hsplit, hnext, hall⟩ := ih hprefix
      refine ⟨n + 1, rest, ?_, ?_, ?_, ?_⟩
      · rw [drain_some hsome, List.drop_left, hdrain]
        rfl
      · rw [hsplit, List.take_succ_cons, List.flatten_cons, List.append_assoc]
      · rwa [List.getElem?_cons_succ]
      · intro hlength
        exact hall (Nat.le_of_succ_le_succ hlength)

/-- Once the whole stream is there, no message is missing. -/
theorem length_le_of_split {n : ℕ} (hsplit : chunks.flatten = (chunks.take n).flatten ++ rest)
    (hnext : ∀ next ∈ chunks[n]?, rest.length < next.length) : chunks.length ≤ n := by
  by_contra hlt
  have hlt := Nat.not_le.mp hlt
  have hshort := hnext chunks[n] (List.getElem?_eq_getElem hlt)
  have hdrop : (chunks.drop n).flatten = rest := by
    have htake : (chunks.take n).flatten ++ (chunks.drop n).flatten = chunks.flatten := by
      rw [← List.flatten_append, List.take_append_drop]
    exact List.append_cancel_left (htake.trans hsplit)
  rw [List.drop_eq_getElem_cons hlt, List.flatten_cons] at hdrop
  have hlong := congrArg List.length hdrop
  rw [List.length_append] at hlong
  omega

/-- However a stream of messages is split, and as far as it has come: the messages that are there
have been received, and what is left is the beginning of the next one. -/
theorem outcome_of_carries (h : List.Forall₂ x.Carries chunks ms) {reads : List (List α)}
    (hreads : reads.flatten <+: chunks.flatten) :
    ∃ n rest, x.outcome reads = (ms.take n, .ok rest) ∧
      reads.flatten = (chunks.take n).flatten ++ rest ∧
      (∀ next ∈ chunks[n]?, rest.length < next.length) ∧ (chunks.length ≤ n → rest = []) := by
  have hwhole : x.outcome reads = x.drain reads.flatten := by
    apply outcome_eq_drain
    intro rest hrest buffer hbuffer e herror
    obtain ⟨chunks', ms', h', hprefix⟩ := Start.carries h hreads hrest
    exact absurd herror (extract_ne_error h' (hbuffer.trans hprefix))
  rw [hwhole]
  exact drain_of_carries h hreads

end
end Extractor
end SignalIOS.Lib
