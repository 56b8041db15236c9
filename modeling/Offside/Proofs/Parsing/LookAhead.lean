import Offside.Proofs.Parsing.Answers

/-!
# Looking ahead

A reader of tokens may look any number of places ahead between two advances. What a `Stream` answers to
its calls, and its answers after them, come of the answers of its lexer alone (`Stream.serve_congr`), so
that it is no more than a list with an index: `stream_reads_list` for all sources and calls.
-/

namespace Offside

namespace Answers

variable {answers later later' : Answers} {tokens tokens' : List Token} {e e' : LexError} {i k : Nat}

theorem Sound.append (sound : answers.Sound i) (later : Sound (answers.drop i) k) :
    answers.Sound (i + k) := by
  intro j lt
  by_cases within : j < i
  · exact sound j within
  · obtain ⟨n, rfl⟩ := Nat.exists_eq_add_of_le (Nat.le_of_not_lt within)
    obtain ⟨token, found⟩ := later n (by omega)
    exact ⟨token, by rwa [Stream'.get_drop] at found⟩

/-- Some tokens, the first error, and the answers behind it. -/
def Breaks (answers : Answers) (tokens : List Token) (e : LexError) (later : Answers) : Prop :=
  answers = Answers.after (.cons (.error e) later) tokens

theorem Breaks.unique (first : answers.Breaks tokens e later)
    (second : answers.Breaks tokens' e' later') : tokens = tokens' ∧ e = e' ∧ later = later' := by
  induction tokens generalizing answers tokens' with
  | nil =>
    cases tokens' with
    | nil =>
      have same := first.symm.trans second
      exact ⟨rfl, Except.error.inj (congrArg Stream'.head same), congrArg Stream'.tail same⟩
    | cons token' tokens' => cases congrArg Stream'.head (first.symm.trans second)
  | cons token tokens ih =>
    cases tokens' with
    | nil => cases congrArg Stream'.head (first.symm.trans second)
    | cons token' tokens' =>
      have same := first.symm.trans second
      have head : (.ok token : Except LexError Token) = .ok token' := congrArg Stream'.head same
      obtain ⟨rfl, rest⟩ := ih rfl (congrArg Stream'.tail same)
      cases head
      exact ⟨rfl, rest⟩

theorem Breaks.sound (breaks : answers.Breaks tokens e later) : answers.Sound tokens.length := by
  intro i lt
  exact ⟨tokens[i], by rw [breaks, get_after_lt lt]⟩

theorem Breaks.get (breaks : answers.Breaks tokens e later) :
    answers.get tokens.length = .error e := by
  have found := get_after_add (.cons (.error e) later) tokens 0
  rw [Nat.add_zero, ← breaks] at found
  exact found

end Answers

namespace Stream

/-- What may be asked of a stream. -/
inductive Call where
  | peek (ahead : Nat)
  | advance
  deriving DecidableEq

def Call.run (s : Stream) : Call → Outcome Token
  | .peek ahead => s.peek ahead
  | .advance => s.advance

/-- The places that calls ask for, when `consumed` tokens were consumed before them. -/
def Call.places (consumed : Nat) : List Call → List Nat
  | [] => []
  | .peek ahead :: calls => (consumed + ahead) :: places consumed calls
  | .advance :: calls => consumed :: places (consumed + 1) calls

/-- The answer to a call, and the stream after it. -/
def serve (s : Stream) (call : Call) : Except LexError Token × Stream :=
  match call.run s with
  | .ok token t => (.ok token, t)
  | .error e t => (.error e, t)

/-- The answers to calls made one after another, whatever they are. -/
def results (s : Stream) : List Call → List (Except LexError Token)
  | [] => []
  | call :: calls => (s.serve call).1 :: (s.serve call).2.results calls

def afterCalls (s : Stream) (calls : List Call) : Stream :=
  calls.foldl (fun s call => (s.serve call).2) s

/-- No call fails. -/
def Serves (s : Stream) (calls : List Call) : Prop :=
  ∀ answer ∈ s.results calls, ∃ token, answer = .ok token

/-- The answers to those of the calls that consume a token. -/
def delivered (s : Stream) : List Call → List (Except LexError Token)
  | [] => []
  | .peek ahead :: calls => (s.serve (.peek ahead)).2.delivered calls
  | .advance :: calls => (s.serve .advance).1 :: (s.serve .advance).2.delivered calls

variable {s t : Stream} {call : Call} {calls later : List Call} {token : Token} {e : LexError}

/-! ### One call -/

theorem serve_of_ok (run : call.run s = .ok token t) : s.serve call = (.ok token, t) := by
  rw [serve, run]

theorem serve_of_error (run : call.run s = .error e t) : s.serve call = (.error e, t) := by
  rw [serve, run]

theorem serve_eq_ok {answer : Except LexError Token} (served : s.serve call = (answer, t)) :
    (∃ token, answer = .ok token ∧ call.run s = .ok token t) ∨
      ∃ e, answer = .error e ∧ call.run s = .error e t := by
  cases run : call.run s with
  | ok token u =>
    rw [serve_of_ok run] at served
    cases served
    exact .inl ⟨token, rfl, rfl⟩
  | error e u =>
    rw [serve_of_error run] at served
    cases served
    exact .inr ⟨e, rfl, rfl⟩

theorem read_breaks {count : Nat} (failed : s.read count = .error e t) :
    s.answers.Breaks t.buffer e t.lexer.answers := by
  induction count generalizing s with
  | zero => cases failed
  | succ count ih =>
    unfold read at failed
    split at failed
    · next asked =>
      cases failed
      rw [answers, Lexer.answers_of_error asked]
      rfl
    · next token lexer asked =>
      have breaks := ih failed
      rw [answers, Answers.after_append] at breaks
      rw [answers, Lexer.answers_of_ok asked]
      exact breaks

/-- A call fails on the first error of the answers, and keeps the tokens before it. -/
theorem run_breaks (failed : call.run s = .error e t) :
    s.answers.Breaks t.buffer e t.lexer.answers := by
  cases call with
  | peek ahead =>
    change s.peek ahead = _ at failed
    unfold peek at failed
    split at failed
    · next failed' =>
      cases failed
      exact read_breaks failed'
    · cases failed
  | advance =>
    change s.advance = _ at failed
    unfold advance at failed
    split at failed
    · cases failed
    · next empty =>
      split at failed
      · next asked =>
        cases failed
        rw [answers, empty]
        exact Lexer.answers_of_error asked
      · cases failed

/-- Where a call finds the place that it asks for, and how many tokens it consumes. -/
def Call.place : Call → Nat
  | .peek ahead => ahead
  | .advance => 0

def Call.size : Call → Nat
  | .peek _ => 0
  | .advance => 1

theorem run_ok (run : call.run s = .ok token t) : s.answers.Sound (call.place + 1) ∧
    s.answers.get call.place = .ok token ∧ t.answers = s.answers.drop call.size := by
  cases call with
  | peek ahead =>
    obtain ⟨same, before, found⟩ := peek_ok run
    exact ⟨fun i lt => before i (Nat.le_of_lt_succ lt), found, same⟩
  | advance =>
    have split := advance_ok run
    have found : s.answers.get 0 = .ok token := by rw [split]; rfl
    exact ⟨s.answers.sound_zero.succ found, found, by rw [split]; rfl⟩

theorem run_of_sound (sound : s.answers.Sound (call.place + 1)) :
    ∃ token t, call.run s = .ok token t := by
  cases call with
  | peek ahead => exact peek_of_answers fun i le => sound i (Nat.lt_succ_of_le le)
  | advance =>
    obtain ⟨token, found⟩ := sound 0 (Nat.succ_pos 0)
    obtain ⟨t, run⟩ := advance_of_answers found
    exact ⟨token, t, run⟩

theorem serve_ok_iff :
    (∃ token, (s.serve call).1 = .ok token) ↔ s.answers.Sound (call.place + 1) := by
  constructor
  · rintro ⟨token, answer⟩
    rcases serve_eq_ok (Prod.ext answer rfl) with ⟨_, -, run⟩ | ⟨_, same, -⟩
    · exact (run_ok run).1
    · cases same
  · intro sound
    obtain ⟨token, t, run⟩ := run_of_sound sound
    exact ⟨token, by rw [serve_of_ok run]⟩

/-- What a call says, and what the stream says after it, come of the answers alone. -/
theorem serve_congr (same : s.answers = t.answers) (call : Call) :
    (s.serve call).1 = (t.serve call).1 ∧
      (s.serve call).2.answers = (t.serve call).2.answers := by
  cases run : call.run s with
  | ok token s' =>
    obtain ⟨sound, found, rest⟩ := run_ok run
    rw [same] at sound found rest
    obtain ⟨token', t', run'⟩ := run_of_sound sound
    obtain ⟨-, found', rest'⟩ := run_ok run'
    rw [serve_of_ok run, serve_of_ok run', rest, rest', ← found, ← found']
    exact ⟨rfl, rfl⟩
  | error e s' =>
    have breaks := run_breaks run
    cases run' : call.run t with
    | ok token t' =>
      obtain ⟨sound, -, -⟩ := run_ok run'
      rw [← same] at sound
      obtain ⟨token', s'', run''⟩ := run_of_sound sound
      rw [run] at run''
      cases run''
    | error e' t' =>
      have breaks' := run_breaks run'
      rw [← same] at breaks'
      obtain ⟨tokens, rfl, rest⟩ := breaks.unique breaks'
      rw [serve_of_error run, serve_of_error run', answers, answers, tokens, rest]
      exact ⟨rfl, rfl⟩

/-! ### Calls one after another -/

theorem results_congr (same : s.answers = t.answers) (calls : List Call) :
    s.results calls = t.results calls := by
  induction calls generalizing s t with
  | nil => rfl
  | cons call calls ih =>
    obtain ⟨answer, rest⟩ := serve_congr same call
    rw [results, results, answer, ih rest]

theorem serves_cons : s.Serves (call :: calls) ↔
    (∃ token, (s.serve call).1 = .ok token) ∧ (s.serve call).2.Serves calls :=
  List.forall_mem_cons

theorem answers_serve (found : ∃ token, (s.serve call).1 = .ok token) :
    (s.serve call).1 = s.answers.get call.place ∧
      (s.serve call).2.answers = s.answers.drop call.size := by
  obtain ⟨token, t, run⟩ := run_of_sound (serve_ok_iff.mp found)
  obtain ⟨-, found, rest⟩ := run_ok run
  rw [serve_of_ok run]
  exact ⟨found.symm, rest⟩

theorem Call.places_cons (consumed : Nat) (call : Call) (calls : List Call) :
    places consumed (call :: calls) =
      (consumed + call.place) :: places (consumed + call.size) calls := by
  cases call <;> rfl

theorem Call.places_add (first second : Nat) (calls : List Call) :
    places (first + second) calls = (places second calls).map (first + ·) := by
  induction calls generalizing second with
  | nil => rfl
  | cons call calls ih =>
    rw [places_cons, places_cons, List.map_cons, ← ih, Nat.add_assoc, Nat.add_assoc]

theorem Call.count_cons (call : Call) (calls : List Call) :
    (call :: calls).count .advance = call.size + calls.count .advance := by
  cases call with
  | peek ahead =>
    have other : peek ahead ≠ advance := Call.noConfusion
    rw [List.count_cons_of_ne other, size, Nat.zero_add]
  | advance => rw [List.count_cons_self, size, Nat.add_comm]

theorem Call.size_le (call : Call) : call.size ≤ call.place + 1 := by
  cases call with
  | peek ahead => exact Nat.zero_le _
  | advance => exact Nat.le_refl 1

/-- The places asked for in what a first call leaves. -/
theorem sound_of_places_cons {answers : Answers} (sound : answers.Sound (call.place + 1)) :
    (∀ place ∈ Call.places 0 (call :: calls), answers.Sound (place + 1)) ↔
      ∀ place ∈ Call.places 0 calls, Answers.Sound (answers.drop call.size) (place + 1) := by
  have first : answers.Sound call.size := fun i lt => sound i (Nat.lt_of_lt_of_le lt call.size_le)
  rw [Call.places_cons, List.forall_mem_cons, Nat.zero_add, Nat.zero_add, ← Nat.add_zero call.size,
    Call.places_add, List.forall_mem_map, Nat.add_zero, and_iff_right sound]
  refine forall₂_congr fun place _ => ⟨fun all i lt => ?_, fun later => first.append later⟩
  rw [Stream'.get_drop]
  exact all _ (by omega)

/-- No call fails as long as there are only tokens up to the places asked for. -/
theorem serves_iff :
    s.Serves calls ↔ ∀ place ∈ Call.places 0 calls, s.answers.Sound (place + 1) := by
  induction calls generalizing s with
  | nil => exact iff_of_true (List.forall_mem_nil _) (List.forall_mem_nil _)
  | cons call calls ih =>
    rw [serves_cons, ih]
    constructor
    · rintro ⟨served, rest⟩
      have sound := serve_ok_iff.mp served
      rw [(answers_serve served).2] at rest
      exact (sound_of_places_cons sound).mpr rest
    · intro all
      have sound := all call.place (by rw [Call.places_cons, Nat.zero_add]; exact List.mem_cons_self)
      have served := serve_ok_iff.mpr sound
      rw [(answers_serve served).2]
      exact ⟨served, (sound_of_places_cons sound).mp all⟩

/-- Calls that do not fail are answered with what stands at their places. -/
theorem results_of_serves (serves : s.Serves calls) :
    s.results calls = (Call.places 0 calls).map s.answers.get := by
  induction calls generalizing s with
  | nil => rfl
  | cons call calls ih =>
    obtain ⟨served, rest⟩ := serves_cons.mp serves
    obtain ⟨answer, left⟩ := answers_serve served
    have shifted : s.answers.get ∘ (call.size + ·) = (s.answers.drop call.size).get :=
      funext fun i => (Stream'.get_drop i call.size s.answers).symm
    rw [results, answer, ih rest, left, Call.places_cons, List.map_cons, Nat.zero_add, Nat.zero_add,
      ← Nat.add_zero call.size, Call.places_add, List.map_map, Nat.add_zero, shifted]

/-- The tokens that calls consume are those in front. -/
theorem afterCalls_of_serves (serves : s.Serves calls) : s.answers.Sound (calls.count .advance) ∧
    (s.afterCalls calls).answers = s.answers.drop (calls.count .advance) := by
  induction calls generalizing s with
  | nil => exact ⟨s.answers.sound_zero, rfl⟩
  | cons call calls ih =>
    obtain ⟨served, rest⟩ := serves_cons.mp serves
    obtain ⟨sound, left⟩ := ih rest
    have first : s.answers.Sound call.size := fun i lt =>
      serve_ok_iff.mp served i (Nat.lt_of_lt_of_le lt call.size_le)
    rw [(answers_serve served).2] at sound left
    rw [Stream'.drop_drop, ← Call.count_cons] at left
    rw [Call.count_cons]
    exact ⟨first.append sound, (Call.count_cons call calls) ▸ left⟩

theorem results_append (s : Stream) (calls later : List Call) :
    s.results (calls ++ later) = s.results calls ++ (s.afterCalls calls).results later := by
  induction calls generalizing s with
  | nil => rfl
  | cons call calls ih =>
    rw [List.cons_append, results, results, List.cons_append, ih]
    rfl

theorem length_results (s : Stream) (calls : List Call) : (s.results calls).length = calls.length := by
  induction calls generalizing s with
  | nil => rfl
  | cons call calls ih => rw [results, List.length_cons, List.length_cons, ih]

/-- Without a look ahead all other calls are answered as with it. -/
theorem results_erase_peek {ahead : Nat} (serves : s.Serves (calls ++ [.peek ahead])) :
    (s.results (calls ++ .peek ahead :: later)).eraseIdx calls.length =
      s.results (calls ++ later) := by
  rw [Serves, results_append, List.forall_mem_append] at serves
  obtain ⟨served, -⟩ := serves_cons.mp serves.2
  have length := length_results s calls
  rw [results_append, results_append, List.eraseIdx_append_of_length_le (Nat.le_of_eq length), length,
    Nat.sub_self, results, List.eraseIdx_cons_zero]
  congr 1
  exact results_congr (answers_serve served).2 later

theorem buffer_read (t : Stream) (count : Nat) : t.buffer <+: (leaves (t.read count)).buffer := by
  induction count generalizing t with
  | zero => exact List.prefix_rfl
  | succ count ih =>
    unfold read
    split
    · exact List.prefix_rfl
    · next token lexer _ => exact (List.prefix_append _ [token]).trans (ih ⟨lexer, _⟩)

theorem buffer_serve_peek (t : Stream) (ahead : Nat) :
    t.buffer <+: (t.serve (.peek ahead)).2.buffer := by
  have kept := t.buffer_read (ahead + 1 - t.buffer.length)
  simp only [serve, Call.run, peek]
  cases read : t.read (ahead + 1 - t.buffer.length) with
  | ok _ u | error _ u =>
    rw [read] at kept
    exact kept

/-- Tokens that were read are handed out first, whatever else is asked for. -/
theorem delivered_of_buffer {tokens : List Token} {n : Nat} (read : tokens <+: t.buffer)
    (within : n < tokens.length) (more : n < (t.delivered calls).length) :
    (t.delivered calls)[n]? = some (.ok tokens[n]) := by
  induction calls generalizing t tokens n with
  | nil => cases more
  | cons call calls ih =>
    cases call with
    | peek ahead => exact ih (read.trans (t.buffer_serve_peek ahead)) within more
    | advance =>
      cases tokens with
      | nil => cases within
      | cons token tokens =>
        obtain ⟨later, buffered⟩ := read
        have served : t.serve .advance = (.ok token, { t with buffer := tokens ++ later }) := by
          apply serve_of_ok
          show t.advance = _
          unfold advance
          rw [← buffered]
          rfl
        rw [delivered, served] at more ⊢
        cases n with
        | zero => rfl
        | succ n =>
          exact ih (List.prefix_append tokens later) (Nat.lt_of_succ_lt_succ within)
            (Nat.lt_of_succ_lt_succ more)

theorem serves_of_all (all : (s.results calls).all Except.isOk = true) : s.Serves calls := by
  intro answer member
  have ok := List.all_eq_true.mp all answer member
  cases answer with
  | ok token => exact ⟨token, rfl⟩
  | error e => cases ok

end Stream

/-- Until a call fails, the calls on a source are answered from the list of its answers by place, and a
look ahead changes no other answer. The call that fails does so on the first error, and the tokens before
it that were not consumed are handed out first after it. -/
theorem stream_reads_list (source : String) (tabSize : UInt64) :
    let told := (Lexer.ofText source tabSize).answers
    let s := Stream.ofText source tabSize
    (∀ calls, s.Serves calls ↔ ∀ place ∈ Stream.Call.places 0 calls, told.Sound (place + 1)) ∧
    (∀ calls, s.Serves calls → s.results calls = (Stream.Call.places 0 calls).map told.get) ∧
    (∀ calls ahead later, s.Serves (calls ++ [.peek ahead]) →
      (s.results (calls ++ .peek ahead :: later)).eraseIdx calls.length =
        s.results (calls ++ later)) ∧
    ∀ calls call e t, s.Serves calls → (s.afterCalls calls).serve call = (.error e, t) →
      ∃ place, told.Sound place ∧ told.get place = .error e ∧ calls.count .advance ≤ place ∧
        ∀ later n, calls.count .advance + n < place → n < (t.delivered later).length →
          (t.delivered later)[n]? = some (told.get (calls.count .advance + n)) := by
  intro told s
  refine ⟨fun calls => Stream.serves_iff, fun calls => Stream.results_of_serves,
    fun calls ahead later => Stream.results_erase_peek, fun calls call e t serves failed => ?_⟩
  obtain ⟨consumed, left⟩ := Stream.afterCalls_of_serves serves
  change told.Sound _ at consumed
  change _ = told.drop _ at left
  rcases Stream.serve_eq_ok failed with ⟨_, same, -⟩ | ⟨_, same, run⟩
  · cases same
  cases same
  have breaks := Stream.run_breaks run
  rw [left] at breaks
  refine ⟨_, consumed.append breaks.sound, ?_, Nat.le_add_right _ t.buffer.length, ?_⟩
  · rw [← breaks.get, Stream'.get_drop]
  · intro later n lt more
    have within : n < t.buffer.length := by omega
    rw [Stream.delivered_of_buffer List.prefix_rfl within more, ← Stream'.get_drop, breaks,
      Answers.get_after_lt within]

/-- Two tokens and an error: the token that was looked at comes before what is behind the error. -/
theorem stream_reads_list_past_error :
    let told := (Lexer.ofText "a b $" 8).answers
    let s := Stream.ofText "a b $" 8
    s.Serves [.peek 1, .advance] ∧ s.results [.peek 1, .advance] = [told.get 1, told.get 0] ∧
    (s.results [.peek 1, .advance]).eraseIdx 0 = s.results [.advance] ∧
    ∃ e t, (s.afterCalls [.peek 1, .advance]).serve (.peek 1) = (.error e, t) ∧
      t.delivered [.advance] = [told.get 1] := by
  intro told s
  obtain ⟨served, placed, erased, failing⟩ := stream_reads_list "a b $" 8
  have all : (s.results [.peek 1, .advance]).all Except.isOk = true := by decide +kernel
  have serves : s.Serves [.peek 1, .advance] := Stream.serves_of_all all
  have peeks : s.Serves ([] ++ [.peek 1]) := Stream.serves_of_all (by decide +kernel)
  refine ⟨serves, placed _ serves, erased [] 1 [.advance] peeks, ?_⟩
  have fails : ((s.afterCalls [.peek 1, .advance]).serve (.peek 1)).1.isOk = false := by
    decide +kernel
  cases failed : (s.afterCalls [.peek 1, .advance]).serve (.peek 1) with
  | mk answer t =>
    rw [failed] at fails
    cases answer with
    | ok token => cases fails
    | error e =>
      obtain ⟨place, sound, found, -, handed⟩ := failing _ _ e t serves failed
      have ready : told.Sound 2 := (served _).mp serves 1 (by decide)
      have behind : 2 ≤ place := by
        by_contra before
        obtain ⟨token, found'⟩ := ready place (by omega)
        cases found.symm.trans found'
      have first := handed [.advance] 0 behind Nat.one_pos
      exact ⟨e, t, rfl, congrArg (fun answer => [answer]) (Option.some.inj first)⟩

end Offside
