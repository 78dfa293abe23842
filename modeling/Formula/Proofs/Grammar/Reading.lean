import Formula.Expr.Parse
import Formula.Proofs.Grammar.Derivation
import Formula.Proofs.Grammar.Lexing

/-!
# Reading along a stream

What a reader does on a stream is judged by a kind of phrase. If it reads something, then the tokens
that it passes are a phrase of the kind, in front of whatever may follow. If it complains, then the
tokens in front of the place of the complaint start a phrase of the kind: a few closing tokens make
them one. Either way it looks at no more than the token behind those it passes, so it does the same
on every stream that agrees up to there, and there a reader with higher counters does the same too.

The judgement is composed as readers are, by one rule for each way in which they are put together.
-/

namespace Formula

open Grammar

namespace Tokens

/-! ### Passing tokens -/

/-- That a stream has these tokens and then goes on as another stream. -/
inductive Passes : Tokens → List Token → Tokens → Prop
  | here {s : Tokens} : Passes s [] s
  | cons {t : Token} {start stop : ℕ} {s s' : Tokens} {ts : List Token} (more : Passes s ts s') :
      Passes (.cons t start stop s) (t :: ts) s'

/-- That a stream is not broken at its very start. -/
def Unbroken (s : Tokens) : Prop := s.ready = .ok s

/-- That two streams look the same to a reader that looks at their first token. -/
def Alike (s r : Tokens) : Prop := s.Unbroken ∧ r.Unbroken ∧ r.head? = s.head?

/-- That a reader which stops at a stream gives this fault: the break of a broken one, else a
complaint about the first token. -/
inductive Stops : Tokens → Fault → Prop
  | lexical {cause : LexicalFault} {position : ℕ} :
      Stops (.broken cause position) (.lexical cause position)
  | grammar {s : Tokens} {cause : GrammarFault} (unbroken : s.Unbroken) :
      Stops s (.grammar cause s.position)

variable {s s' s'' r r' : Tokens} {t : Token} {ts us : List Token}

lemma Passes.append (h : s.Passes ts s') (h' : s'.Passes us s'') : s.Passes (ts ++ us) s'' := by
  induction h with
  | here => exact h'
  | cons _ ih => exact .cons (ih h')

/-- What passes two rows of tokens passes them one after the other. -/
lemma Passes.split (h : s.Passes (ts ++ us) s'') : ∃ s', s.Passes ts s' ∧ s'.Passes us s'' := by
  induction ts generalizing s with
  | nil => exact ⟨s, .here, h⟩
  | cons t ts ih =>
    cases h with
    | cons more =>
      obtain ⟨s', first, second⟩ := ih more
      exact ⟨s', .cons first, second⟩

lemma Passes.size_eq (h : s.Passes ts s') : s.size = ts.length + s'.size := by
  induction h with
  | here => exact (Nat.zero_add _).symm
  | cons _ ih => rw [size, ih, List.length_cons, Nat.add_right_comm]

lemma Passes.spells (h : s.Passes ts s') (behind : s'.Spells us) : s.Spells (ts ++ us) := by
  induction h with
  | here => exact behind
  | cons _ ih => exact .cons (ih behind)

/-- Streams that pass the same tokens and then look the same look the same. -/
lemma Passes.head?_eq (h : s.Passes ts s') (h' : r.Passes ts r') (alike : Alike s' r') :
    r.head? = s.head? := by
  cases h with
  | here =>
    cases h'
    exact alike.2.2
  | cons _ =>
    cases h'
    rfl

/-- Only a first token stands in front of its own kind. -/
lemma Passes.head?_of_append (h : s.Passes ts s') (admits : us.head? = some t → s'.head? = some t)
    (head : (ts ++ us).head? = some t) : s.head? = some t := by
  cases h with
  | here => exact admits head
  | cons _ => exact head

lemma unbroken_cons {start stop : ℕ} : (cons t start stop s).Unbroken := rfl

lemma exists_cons_of_head? (h : s.head? = some t) :
    ∃ start stop rest, s = .cons t start stop rest := by
  cases s with
  | cons =>
    cases h
    exact ⟨_, _, _, rfl⟩
  | _ => cases h

/-- A stream is broken at its start or is handed on as it is. -/
lemma broken_or_unbroken (s : Tokens) :
    (∃ cause position, s = .broken cause position) ∨ s.Unbroken := by
  cases s with
  | broken cause position => exact .inl ⟨cause, position, rfl⟩
  | _ => exact .inr rfl

end Tokens

namespace Reader

open Tokens

variable {ι α β : Type}

/-! ### What a reader does on a stream -/

/-- The tokens that complete what has been started: an operand, the ends of lists and a type. -/
def fillers : List Token := [.null, .closeParen, .closeBracket, .identifier "int"]

/-- That tokens start a phrase of a kind, and fillers can complete it. -/
def Starts (Phrase : List Token → α → List Token → Prop) (ts : List Token) : Prop :=
  ∃ more a, (∀ t ∈ more, t ∈ fillers) ∧
    ∀ us : List Token, us.head? ≠ some .openParen → Phrase (ts ++ (more ++ us)) a us

/-- What has to stand behind a phrase for the two to be a whole. -/
def Behind (Phrase : List Token → α → List Token → Prop)
    (Whole : List Token → β → List Token → Prop) (a : α) (us : List Token) (b : β)
    (vs : List Token) : Prop :=
  ∀ ts, Phrase ts a us → Whole ts b vs

/-- That an outcome is what a reader of phrases of a kind makes of a stream, and that certain
readers do the same on all streams that agree with it as far as this one is looked at. -/
inductive Reads (readers : ι → Reader α) (Phrase : List Token → α → List Token → Prop)
    (s : Tokens) : Except Fault (α × Tokens) → Prop
  | ok {ts : List Token} {a : α} {s' : Tokens} (passes : s.Passes ts s') (unbroken : s'.Unbroken)
      (phrase : ∀ us : List Token, (us.head? = some .openParen → s'.head? = some .openParen) →
        Phrase (ts ++ us) a us)
      (same : ∀ i r r', r.Passes ts r' → Alike s' r' → readers i r = .ok (a, r')) :
      Reads readers Phrase s (.ok (a, s'))
  | error {ts : List Token} {s' : Tokens} {fault : Fault} (passes : s.Passes ts s')
      (stops : s'.Stops fault) (starts : Starts Phrase ts)
      (same : ∀ i r r', r.Passes ts r' → Alike s' r' → ∃ fault', readers i r = .error fault') :
      Reads readers Phrase s (.error fault)

variable {readers readers' : ι → Reader α} {Phrase Phrase' : List Token → α → List Token → Prop}
  {s s' : Tokens} {t : Token} {a : α} {x : Except Fault (α × Tokens)}

/-- Fillers open nothing. -/
lemma head?_ne_of_fillers {more us : List Token} (fill : ∀ t ∈ more, t ∈ fillers)
    (closed : us.head? ≠ some .openParen) : (more ++ us).head? ≠ some .openParen := by
  cases more with
  | nil => exact closed
  | cons t more =>
    rintro ⟨⟩
    exact absurd (fill _ List.mem_cons_self) (by decide)

lemma Starts.mono {ts : List Token} (h : Starts Phrase ts)
    (imp : ∀ us a vs, Phrase us a vs → Phrase' us a vs) : Starts Phrase' ts := by
  obtain ⟨more, a, fill, phrase⟩ := h
  exact ⟨more, a, fill, fun us closed => imp _ _ _ (phrase us closed)⟩

/-! ### Rules -/

namespace Reads

lemma mono (h : Reads readers Phrase s x) (imp : ∀ ts a us, Phrase ts a us → Phrase' ts a us) :
    Reads readers Phrase' s x := by
  cases h with
  | ok passes unbroken phrase same =>
    exact .ok passes unbroken (fun us admits => imp _ _ _ (phrase us admits)) same
  | error passes stops starts same => exact .error passes stops (starts.mono imp) same

/-- A reader may be judged as another one that does the same wherever the first token is the
same. -/
lemma congr (h : Reads readers Phrase s x)
    (same : ∀ i r, r.head? = s.head? → readers' i r = readers i r) :
    Reads readers' Phrase s x := by
  cases h with
  | ok passes unbroken phrase same' =>
    refine .ok passes unbroken phrase fun i r r' passes' alike => ?_
    rw [same i r (passes.head?_eq passes' alike)]
    exact same' i r r' passes' alike
  | error passes stops starts same' =>
    refine .error passes stops starts fun i r r' passes' alike => ?_
    rw [same i r (passes.head?_eq passes' alike)]
    exact same' i r r' passes' alike

/-- What is read without a token is the empty phrase. -/
lemma pure (unbroken : s.Unbroken)
    (phrase : ∀ us : List Token, (us.head? = some .openParen → s.head? = some .openParen) →
      Phrase us a us) :
    Reads (fun (_ : ι) r => .ok (a, r)) Phrase s (.ok (a, s)) := by
  refine .ok .here unbroken phrase ?_
  rintro i r r' ⟨⟩ _
  rfl

/-- A complaint about the first token comes where a phrase could start. -/
lemma complaint {cause : GrammarFault} (unbroken : s.Unbroken) (starts : Starts Phrase [])
    (same : ∀ i r, Alike s r → ∃ fault, readers i r = .error fault) :
    Reads readers Phrase s (.error (.grammar cause s.position)) := by
  refine .error .here (.grammar unbroken) starts ?_
  rintro i r r' ⟨⟩ alike
  exact same i r alike

/-- A token in front of a phrase is passed. -/
lemma advance {k : Tokens → Except Fault (α × Tokens)} (head : s.head? = some t)
    (starts : Starts Phrase [t])
    (more : ∀ s', s'.Unbroken → s'.size < s.size →
      Reads readers (fun ts => Phrase (t :: ts)) s' (k s')) :
    Reads (fun i r => r.advance >>= readers i) Phrase s (s.advance >>= k) := by
  obtain ⟨start, stop, s', rfl⟩ := exists_cons_of_head? head
  rcases broken_or_unbroken s' with ⟨cause, position, rfl⟩ | unbroken
  · refine .error (.cons .here) .lexical starts ?_
    -- A stream that breaks looks like no other.
    rintro i r r' - ⟨unbroken, -⟩
    cases unbroken
  · have moved : (Tokens.cons t start stop s').advance >>= k = k s' := by
      rw [Tokens.advance, unbroken]
      rfl
    have shift (i : ι) {r r' : Tokens} {ts : List Token} (passes : r.Passes (t :: ts) r')
        (unbroken' : r'.Unbroken) :
        ∃ q, q.Passes ts r' ∧ r.advance >>= readers i = readers i q := by
      cases passes with
      | @cons _ _ _ q _ _ passes =>
        refine ⟨q, passes, ?_⟩
        have unbroken : q.Unbroken := by
          cases passes with
          | here => exact unbroken'
          | cons _ => exact unbroken_cons
        rw [Tokens.advance, unbroken]
        rfl
    rw [moved]
    generalize result : k s' = x
    have judged := more s' unbroken (Nat.lt_succ_self _)
    rw [result] at judged
    cases judged with
    | ok passes unbroken phrase same =>
      refine .ok (.cons passes) unbroken phrase fun i r r' passes' alike => ?_
      obtain ⟨q, passes', eq⟩ := shift i passes' alike.2.1
      rw [eq]
      exact same i q r' passes' alike
    | error passes stops starts same =>
      refine .error (.cons passes) stops starts fun i r r' passes' alike => ?_
      obtain ⟨q, passes', eq⟩ := shift i passes' alike.2.1
      rw [eq]
      exact same i q r' passes' alike

variable {Whole : List Token → β → List Token → Prop} {f : α × Tokens → Except Fault (β × Tokens)}
  {g : ι → α × Tokens → Except Fault (β × Tokens)}

/-- A phrase and what makes it a whole are read one after the other. -/
lemma bind (first : Reads readers Phrase s x)
    (second : ∀ a s', x = .ok (a, s') → s'.Unbroken → s'.size ≤ s.size →
      Reads (fun i r => g i (a, r)) (Behind Phrase Whole a) s' (f (a, s')))
    (starts : ∀ a, Starts (Behind Phrase Whole a) []) :
    Reads (fun i r => readers i r >>= g i) Whole s (x >>= f) := by
  cases first with
  | @error ts s' fault passes stops begun same =>
    obtain ⟨more, a, fill, phrase⟩ := begun
    obtain ⟨more', b, fill', next⟩ := starts a
    refine .error passes stops ⟨more ++ more', b, ?_, fun us closed => ?_⟩ ?_
    · exact List.forall_mem_append.2 ⟨fill, fill'⟩
    · rw [List.append_assoc]
      exact next us closed _ (phrase _ (head?_ne_of_fillers fill' closed))
    · intro i r r' passes' alike
      obtain ⟨fault', failed⟩ := same i r r' passes' alike
      exact ⟨fault', by rw [failed]; rfl⟩
  | @ok ts a s' passes unbroken phrase same =>
    have shorter : s'.size ≤ s.size := passes.size_eq ▸ Nat.le_add_left _ _
    have judged := second a s' rfl unbroken shorter
    change Reads _ _ s (f (a, s'))
    generalize f (a, s') = y at judged
    -- Both readers go on alike where the streams do.
    have shift (i : ι) {us : List Token} {s'' r r'' : Tokens} (passes₂ : s'.Passes us s'')
        (passes' : r.Passes (ts ++ us) r'') (alike : Alike s'' r'') :
        ∃ r', r'.Passes us r'' ∧ readers i r >>= g i = g i (a, r') := by
      obtain ⟨r', passes', passes₂'⟩ := passes'.split
      have unbroken' : r'.Unbroken := by
        cases passes₂' with
        | here => exact alike.2.1
        | cons _ => exact unbroken_cons
      refine ⟨r', passes₂', ?_⟩
      rw [same i r r' passes' ⟨unbroken, unbroken', passes₂.head?_eq passes₂' alike⟩]
      rfl
    cases judged with
    | @ok us b s'' passes₂ unbroken₂ next same₂ =>
      refine .ok (passes.append passes₂) unbroken₂ (fun vs admits => ?_) ?_
      · rw [List.append_assoc]
        exact next vs admits _ (phrase _ (passes₂.head?_of_append admits))
      · intro i r r'' passes' alike
        obtain ⟨r', passes₂', eq⟩ := shift i passes₂ passes' alike
        rw [eq]
        exact same₂ i r' r'' passes₂' alike
    | @error us s'' fault passes₂ stops begun same₂ =>
      obtain ⟨more, b, fill, next⟩ := begun
      refine .error (passes.append passes₂) stops ⟨more, b, fill, fun vs closed => ?_⟩ ?_
      · have admits (head : (more ++ vs).head? = some .openParen) : s''.head? = some .openParen :=
          absurd head (head?_ne_of_fillers fill closed)
        rw [List.append_assoc]
        exact next vs closed _ (phrase _ (passes₂.head?_of_append admits))
      · intro i r r'' passes' alike
        obtain ⟨r', passes₂', eq⟩ := shift i passes₂ passes' alike
        rw [eq]
        exact same₂ i r' r'' passes₂' alike

/-- What is read may be put into a greater whole. -/
lemma map {h : α → β} (judged : Reads readers Phrase s x)
    (whole : ∀ ts a us, Phrase ts a us → Whole ts (h a) us) :
    Reads (fun i r => readers i r >>= fun y => .ok (h y.1, y.2)) Whole s
      (x >>= fun y => .ok (h y.1, y.2)) := by
  exact judged.bind
    (fun a s' _ unbroken _ => .pure (a := h a) unbroken fun us _ ts phrase => whole ts a us phrase)
    (fun a => ⟨[], h a, nofun, fun us _ ts phrase => whole ts a us phrase⟩)

/-- Behind a phrase of at least one token the stream is shorter. -/
lemma size_lt (h : Reads readers Phrase s (.ok (a, s')))
    (takes : ∀ ts a us, Phrase ts a us → us.length < ts.length) : s'.size < s.size := by
  cases h with
  | ok passes _ phrase _ =>
    have taken := takes _ _ _ (phrase [] nofun)
    rw [List.append_nil, List.length_nil] at taken
    rw [passes.size_eq]
    omega

/-- A token that has to come next is passed. -/
lemma expect {cause : GrammarFault} (unbroken : s.Unbroken) (filler : t ∈ fillers) :
    Reads
      (fun (_ : ι) r =>
        if r.head? = some t then r.advance >>= fun r => .ok (a, r) else complain cause r)
      (fun ts b us => b = a ∧ ts = t :: us) s
      (if s.head? = some t then s.advance >>= fun s => .ok (a, s) else complain cause s) := by
  have starts : Starts (fun ts b us => b = a ∧ ts = t :: us) [] :=
    ⟨[t], a, List.forall_mem_singleton.2 filler, fun us _ => ⟨rfl, rfl⟩⟩
  by_cases head : s.head? = some t
  · rw [if_pos head]
    refine .congr (.advance head ⟨[], a, nofun, fun us _ => ⟨rfl, rfl⟩⟩ fun s' unbroken' _ =>
      .pure unbroken' fun us _ => ⟨rfl, rfl⟩) fun i r eq => ?_
    rw [if_pos (eq.trans head)]
  · rw [if_neg head]
    refine .complaint unbroken starts fun i r alike => ?_
    rw [if_neg (alike.2.2 ▸ head)]
    exact ⟨_, rfl⟩

end Reads

end Reader

end Formula
