import ScriptHost.Proofs.Spelling
import ScriptHost.Script.Parser

/-!
# Parsers that foresee what can follow

A parser that reads from left to right foresees what can follow if it stops at the first token that
fits nothing: whatever came behind that token it would stop there too, and what it has read by then
can still be completed. Both hold of a phrase if they hold of its parts, so there is one rule for
each way in which a parser is put together.
-/

namespace ScriptHost
namespace Script

namespace Parser

variable {α β : Type} {m n : Nat}

/-! ## Readers -/

/-- What is read from the front of a row of tokens, with what is left of it. -/
abbrev Reader (α : Type) := Tokens → Except Stop (α × Tokens)

/-- How a phrase is read with so many levels of nesting left. -/
abbrev Leveled (α : Type) := Nat → Reader α

/-- The tree and what is left, or the reason for stopping. -/
def outcome (r : Result α n) : Except Stop (α × Tokens) :=
  match r with
  | .error s => .error s
  | .ok a => .ok (a.tree, a.rest)

/-- A phrase for every depth as a reader. -/
def leveled (p : Nat → Phrase α) : Leveled α := fun d ts =>
  outcome (p d ts)

/-- Goes on with what is left. -/
def Leveled.seq (x : Leveled α) (f : α → Leveled β) : Leveled β := fun d ts =>
  (x d ts).bind fun read => f read.1 d read.2

def Leveled.map (g : α → β) (x : Leveled α) : Leveled β := fun d ts =>
  (x d ts).map fun read => (g read.1, read.2)

section Outcomes

variable {r : Result α m}

@[simp]
theorem outcome_stop (fault : SyntaxFault) (ts : Tokens) :
    outcome (stop fault ts : Result α n) = .error ⟨fault, ts⟩ :=
  rfl

@[simp]
theorem outcome_finish (tree : α) {ts : Tokens} (h : ts.length < n) :
    outcome (finish tree ts h) = .ok (tree, ts) :=
  rfl

@[simp]
theorem outcome_widen (h : m ≤ n) : outcome (widen h r) = outcome r := by
  cases r <;> rfl

@[simp]
theorem outcome_mapTree (g : α → β) :
    outcome (mapTree g r) = (outcome r).map fun read => (g read.1, read.2) := by
  cases r <;> rfl

/-- One phrase after the other. -/
theorem outcome_andThen {x : Leveled α} {f : α → Leveled β} {d : Nat} {ts : Tokens}
    {next : α → (ts : Tokens) → ts.length < m → Result β m} (hr : outcome r = x d ts)
    (h : ∀ a ts hts, outcome (next a ts hts) = f a d ts) :
    outcome (andThen r next) = x.seq f d ts := by
  show _ = (x d ts).bind _
  rw [← hr]
  cases r with
  | error s => rfl
  | ok a => exact h a.tree a.rest a.shorter

/-- A phrase takes one token at least. -/
theorem length_lt_of_outcome {a : α} {rest : Tokens} (h : outcome r = .ok (a, rest)) :
    rest.length < m := by
  cases r with
  | error s => cases h
  | ok x =>
      cases h
      exact x.shorter

/-- A phrase has at least one token. -/
theorem length_lt_of_leveled {p : Nat → Phrase α} {d : Nat} {a : α} {ts rest : Tokens}
    (h : leveled p d ts = .ok (a, rest)) : rest.length < ts.length :=
  length_lt_of_outcome h

end Outcomes

/-! ## Completions -/

/-- The tokens of spellings, as one may add them to a source. -/
def laid (more : List Spelling) : Tokens :=
  more.map fun s => ⟨s.token, 1⟩

@[simp]
theorem laid_append (more more' : List Spelling) : laid (more ++ more') = laid more ++ laid more' :=
  List.map_append

/-- The phrase can be these tokens, if so many levels are left. -/
def Fills (x : Leveled α) (F : Tokens → Prop) (least : Nat) (w : Tokens) : Prop :=
  ∀ d k, least ≤ d → F k → ∃ a, x d (w ++ k) = .ok (a, k)

/-- What has been read of a phrase can be completed, if enough levels are left. -/
def Completes (x : Leveled α) (F : Tokens → Prop) (pre : Tokens) : Prop :=
  ∃ more least, ∀ d, least ≤ d → ∀ k, F k → ∃ a, x d (pre ++ (laid more ++ k)) = .ok (a, k)

/-- The tokens from which on nothing fits. A repeated parameter has been passed by the time when it
is refused. -/
inductive Stop.Blames : Stop → Tokens → Prop
  | next {fault rest} : (∀ name, fault ≠ .duplicateParameter name) → Blames ⟨fault, rest⟩ rest
  | passed {name t rest} : Blames ⟨.duplicateParameter name, rest⟩ (t :: rest)

theorem Stop.Blames.expected (what : Expectation) (ts : Tokens) :
    Stop.Blames ⟨.expected what, ts⟩ ts := by
  refine .next fun name h => ?_
  cases h

theorem Stop.Blames.noOperand (ts : Tokens) : Stop.Blames ⟨.noOperand, ts⟩ ts := by
  refine .next fun name h => ?_
  cases h

/-- A repeated name is reported after it has been taken. -/
theorem Stop.Blames.passes {name : String} {rest next : Tokens}
    (h : Stop.Blames ⟨.duplicateParameter name, rest⟩ next) : ∃ t, next = t :: rest := by
  cases h with
  | next hother => exact absurd rfl (hother name)
  | passed => exact ⟨_, rfl⟩

/-- Either the phrase is read, and would be read with anything behind it that begins in the same
way or may follow the phrase; or levels run out; or reading stops at a token behind which nothing
can help, while what stands before it can be completed. -/
inductive Foresees (x : Leveled α) (F : Tokens → Prop) (d : Nat) (ts : Tokens) : Prop
  | reads (pre rest : Tokens) (a : α) : ts = pre ++ rest →
      (∀ d', d ≤ d' → ∀ rest', rest'.head? = rest.head? ∨ F rest' →
        x d' (pre ++ rest') = .ok (a, rest')) → Foresees x F d ts
  | tooDeep (limit : Nat) (rest : Tokens) : x d ts = .error ⟨.tooDeep limit, rest⟩ →
      Foresees x F d ts
  | stops (pre next : Tokens) (s : Stop) : ts = pre ++ next → x d ts = .error s →
      s.Blames next →
      (∀ t tail, next = t :: tail → ∀ d', d ≤ d' → ∀ tail', ∃ s',
        x d' (pre ++ t :: tail') = .error s') →
      (pre ≠ [] → Completes x F pre) → Foresees x F d ts

section Rules

variable {x y : Leveled α} {f : α → Leveled β} {F G : Tokens → Prop} {d least : Nat} {ts : Tokens}

/-- What fills a place completes it from the beginning. -/
theorem Fills.completes {more : List Spelling} (h : Fills x F least (laid more)) :
    Completes x F [] :=
  ⟨more, least, fun d hd k hk => h d k hd hk⟩

/-- What fills two places fills them one after the other. -/
theorem Fills.seq {w w' : Tokens} (hx : Fills x G least w) (hf : ∀ a, Fills (f a) F least w')
    (hnext : ∀ k, F k → G (w' ++ k)) : Fills (x.seq f) F least (w ++ w') := by
  intro d k hd hk
  rcases hx d _ hd (hnext k hk) with ⟨a, ha⟩
  rcases hf a d k hd hk with ⟨b, hb⟩
  refine ⟨b, ?_⟩
  rw [List.append_assoc]
  show (x d _).bind _ = _
  rw [ha]
  exact hb

theorem Fills.map {w : Tokens} (h : Fills x F least w) (g : α → β) :
    Fills (x.map g) F least w := by
  intro d k hd hk
  rcases h d k hd hk with ⟨a, ha⟩
  refine ⟨g a, ?_⟩
  show (x d _).map _ = _
  rw [ha]
  rfl

theorem Fills.weaken {w : Tokens} (h : Fills x G least w) (hweak : ∀ k, F k → G k) :
    Fills x F least w :=
  fun d k hd hk => h d k hd (hweak k hk)

/-- A phrase that takes a level of its own needs one more. -/
theorem Fills.nested {w : Tokens} (hlevel : ∀ d, x (d + 1) = y d) (h : Fills y F least w) :
    Fills x F (least + 1) w := by
  intro d k hd hk
  rcases d with _ | d
  · cases hd
  · rw [hlevel]
    exact h d k (Nat.le_of_succ_le_succ hd) hk

/-- Another tree for the same tokens. -/
theorem Completes.map {pre : Tokens} (h : Completes x F pre) (g : α → β) :
    Completes (x.map g) F pre := by
  rcases h with ⟨more, least, hmore⟩
  refine ⟨more, least, fun d hd k hk => ?_⟩
  rcases hmore d hd k hk with ⟨a, ha⟩
  refine ⟨g a, ?_⟩
  show (x d _).map _ = _
  rw [ha]
  rfl

/-! ## Single tokens -/

/-- Nothing is read, and nothing that comes next decides it. -/
theorem Foresees.nothing (a : α)
    (h : ∀ d', d ≤ d' → ∀ rest', rest'.head? = ts.head? ∨ F rest' → x d' rest' = .ok (a, rest')) :
    Foresees x F d ts :=
  .reads [] ts a rfl h

/-- The next token is refused, whatever comes behind it. -/
theorem Foresees.refused {s : Stop} (h : x d ts = .error s) (hblames : s.Blames ts)
    (hall : ∀ t tail, ts = t :: tail → ∀ d', d ≤ d' → ∀ tail', ∃ s',
      x d' (t :: tail') = .error s') : Foresees x F d ts :=
  .stops [] ts s rfl h hblames hall (absurd rfl)

/-- Tokens that are passed over leave the rest to the phrase behind them. -/
theorem Foresees.after (w : Tokens) {rest : Tokens}
    (hskip : ∀ d' rest', x d' (w ++ rest') = y d' rest') (hfill : Completes y F [])
    (h : Foresees y F d rest) : Foresees x F d (w ++ rest) := by
  cases h with
  | reads pre rest₁ a heq hread =>
      subst heq
      refine .reads (w ++ pre) rest₁ a (List.append_assoc ..).symm fun d' hd rest' hrest => ?_
      rw [List.append_assoc, hskip]
      exact hread d' hd rest' hrest
  | tooDeep limit rest₁ hdeep => exact .tooDeep limit rest₁ ((hskip d rest).trans hdeep)
  | stops pre next s heq hstop hblames hall hcomplete =>
      -- A refusal right behind `w` leaves nothing of `y` read; then `hfill` says how to go on.
      have hdone : Completes y F pre := by
        by_cases hpre : pre = []
        · exact hpre ▸ hfill
        · exact hcomplete hpre
      refine .stops (w ++ pre) next s (heq ▸ (List.append_assoc ..).symm)
        ((hskip d rest).trans hstop) hblames (fun t tail hnext d' hd tail' => ?_) fun _ => ?_
      · rw [List.append_assoc, hskip]
        exact hall t tail hnext d' hd tail'
      · rcases hdone with ⟨more, least, hmore⟩
        refine ⟨more, least, fun d' hd k hk => ?_⟩
        rw [List.append_assoc, hskip]
        exact hmore d' hd k hk

/-- The next token decides between phrases, each of which has a token at least. -/
theorem Foresees.of_head (hhead : ∀ d' ts', ts'.head? = ts.head? → x d' ts' = y d' ts')
    (hempty : ∃ s, y d [] = .error s) (hF : F []) (h : Foresees y F d ts) : Foresees x F d ts := by
  -- what is passed begins with the token that decides
  have hsame {pre rest tail : Tokens} (heq : ts = pre ++ rest) (hpre : pre ≠ []) (d' : Nat) :
      x d' (pre ++ tail) = y d' (pre ++ tail) := by
    rcases List.exists_cons_of_ne_nil hpre with ⟨t, pre, rfl⟩
    exact hhead d' _ (by rw [heq]; rfl)
  cases h with
  | reads pre rest a heq hread =>
      have hpre : pre ≠ [] := by
        rintro rfl
        rcases hempty with ⟨s, hs⟩
        cases hs.symm.trans (hread d (Nat.le_refl d) [] (.inr hF))
      refine .reads pre rest a heq fun d' hd rest' hrest => ?_
      rw [hsame heq hpre]
      exact hread d' hd rest' hrest
  | tooDeep limit rest hdeep => exact .tooDeep limit rest ((hhead d ts rfl).trans hdeep)
  | stops pre next s heq hstop hblames hall hcomplete =>
      refine .stops pre next s heq ((hhead d ts rfl).trans hstop) hblames
        (fun t tail hnext d' hd tail' => ?_) fun hpre => ?_
      · rw [hhead d' _ (by subst heq hnext; cases pre <;> rfl)]
        exact hall t tail hnext d' hd tail'
      · rcases hcomplete hpre with ⟨more, least, hmore⟩
        refine ⟨more, least, fun d' hd k hk => ?_⟩
        rw [hsame heq hpre]
        exact hmore d' hd k hk

/-! ## Phrases with parts -/

/-- Another tree for the same tokens. -/
theorem Foresees.map (h : Foresees x F d ts) (g : α → β) : Foresees (x.map g) F d ts := by
  have happly (d' : Nat) (ts' : Tokens) :
      x.map g d' ts' = (x d' ts').map fun read => (g read.1, read.2) := rfl
  cases h with
  | reads pre rest a heq hread =>
      refine .reads pre rest (g a) heq fun d' hd rest' hrest => ?_
      rw [happly, hread d' hd rest' hrest]
      rfl
  | tooDeep limit rest hdeep =>
      refine .tooDeep limit rest ?_
      rw [happly, hdeep]
      rfl
  | stops pre next s heq hstop hblames hall hcomplete =>
      refine .stops pre next s heq ?_ hblames (fun t tail hnext d' hd tail' => ?_)
        fun hpre => (hcomplete hpre).map g
      · rw [happly, hstop]
        rfl
      · rcases hall t tail hnext d' hd tail' with ⟨s', hs'⟩
        refine ⟨s', ?_⟩
        rw [happly, hs']
        rfl

/-- A phrase of two parts. The second part can be completed from its beginning in one way, whatever
the first part was. -/
theorem Foresees.seq (more : List Spelling) (hx : Foresees x G d ts)
    (hf : ∀ a rest, x d ts = .ok (a, rest) → Foresees (f a) F d rest)
    (hfill : ∀ a, Fills (f a) F 1 (laid more)) (hnext : ∀ k, F k → G (laid more ++ k))
    (hweak : ∀ k, F k → G k) : Foresees (x.seq f) F d ts := by
  have hgo {a : α} {d' : Nat} {ts' rest' : Tokens} (h : x d' ts' = .ok (a, rest')) :
      x.seq f d' ts' = f a d' rest' := by
    show (x d' ts').bind _ = _
    rw [h]
    rfl
  have hfail {d' : Nat} {ts' : Tokens} {s : Stop} (h : x d' ts' = .error s) :
      x.seq f d' ts' = .error s := by
    show (x d' ts').bind _ = _
    rw [h]
    rfl
  cases hx with
  | reads pre rest a heq hread =>
      have hself := hread d (Nat.le_refl d) rest (.inl rfl)
      rw [← heq] at hself
      -- the first part ends in the same way before whatever the second part begins with
      have hfirst {pre' next tail : Tokens} (hrest : rest = pre' ++ next)
          (htail : tail.head? = next.head? ∨ pre' ≠ [] ∨ G tail) {d' : Nat} (hd : d ≤ d') :
          x d' (pre ++ (pre' ++ tail)) = .ok (a, pre' ++ tail) := by
        refine hread d' hd _ ?_
        rcases pre' with _ | ⟨t, pre'⟩
        · exact htail.imp (·.trans (by rw [hrest]; rfl)) (·.resolve_left (absurd rfl))
        · exact .inl (by rw [hrest]; rfl)
      cases hf a rest hself with
      | reads pre' rest' b heq' hread' =>
          subst heq heq'
          refine .reads (pre ++ pre') rest' b (List.append_assoc ..).symm fun d' hd k hk => ?_
          rw [List.append_assoc, hgo (hfirst rfl (hk.imp_right fun hk => .inr (hweak k hk)) hd)]
          exact hread' d' hd k hk
      | tooDeep limit rest' hdeep => exact .tooDeep limit rest' ((hgo hself).trans hdeep)
      | stops pre' next s heq' hstop hblames hall hcomplete =>
          refine .stops (pre ++ pre') next s (by rw [heq, heq', List.append_assoc])
            ((hgo hself).trans hstop) hblames (fun t tail hcons d' hd tail' => ?_) fun hpre => ?_
          · rw [List.append_assoc, hgo (hfirst heq' (.inl (by rw [hcons]; rfl)) hd)]
            exact hall t tail hcons d' hd tail'
          · by_cases hpre' : pre' = []
            · -- nothing of the second part has been read yet
              refine ⟨more, max d 1, fun d' hd k hk => ?_⟩
              subst hpre'
              rw [List.append_nil,
                hgo (hread d' (Nat.le_trans (Nat.le_max_left ..) hd) _ (.inr (hnext k hk)))]
              exact hfill a d' k (Nat.le_trans (Nat.le_max_right ..) hd) hk
            · rcases hcomplete hpre' with ⟨more', least, hmore⟩
              refine ⟨more', max d least, fun d' hd k hk => ?_⟩
              rw [List.append_assoc,
                hgo (hfirst heq' (.inr (.inl hpre')) (Nat.le_trans (Nat.le_max_left ..) hd))]
              exact hmore d' (Nat.le_trans (Nat.le_max_right ..) hd) k hk
  | tooDeep limit rest hdeep => exact .tooDeep limit rest (hfail hdeep)
  | stops pre next s heq hstop hblames hall hcomplete =>
      refine .stops pre next s heq (hfail hstop) hblames (fun t tail hcons d' hd tail' => ?_)
        fun hpre => ?_
      · rcases hall t tail hcons d' hd tail' with ⟨s', hs'⟩
        exact ⟨s', hfail hs'⟩
      · rcases hcomplete hpre with ⟨more', least, hmore⟩
        refine ⟨more' ++ more, max least 1, fun d' hd k hk => ?_⟩
        rcases hmore d' (Nat.le_trans (Nat.le_max_left ..) hd) _ (hnext k hk) with ⟨a, ha⟩
        rcases hfill a d' k (Nat.le_trans (Nat.le_max_right ..) hd) hk with ⟨b, hb⟩
        refine ⟨b, ?_⟩
        rw [laid_append, List.append_assoc, hgo ha]
        exact hb

/-- What is foreseen before any of some tokens is foreseen before fewer of them. -/
theorem Foresees.weaken (h : Foresees x G d ts) (hweak : ∀ k, F k → G k) : Foresees x F d ts := by
  cases h with
  | reads pre rest a heq hread =>
      exact .reads pre rest a heq fun d' hd rest' hrest =>
        hread d' hd rest' (hrest.imp_right (hweak rest'))
  | tooDeep limit rest hdeep => exact .tooDeep limit rest hdeep
  | stops pre next s heq hstop hblames hall hcomplete =>
      refine .stops pre next s heq hstop hblames hall fun hpre => ?_
      rcases hcomplete hpre with ⟨more, least, hmore⟩
      exact ⟨more, least, fun d' hd k hk => hmore d' hd k (hweak k hk)⟩

/-- A phrase that takes a level of its own. -/
theorem Foresees.nested (hlevel : ∀ d, x (d + 1) = y d) (h : Foresees y F d ts) :
    Foresees x F (d + 1) ts := by
  -- Every deeper budget of `x` is one of `y` with a level less.
  have happly {d' : Nat} (hd : d + 1 ≤ d') : ∃ k, d ≤ k ∧ x d' = y k := by
    rcases d' with _ | k
    · cases hd
    · exact ⟨k, Nat.le_of_succ_le_succ hd, hlevel k⟩
  cases h with
  | reads pre rest a heq hread =>
      refine .reads pre rest a heq fun d' hd rest' hrest => ?_
      rcases happly hd with ⟨k, hk, hxy⟩
      rw [hxy]
      exact hread k hk rest' hrest
  | tooDeep limit rest hdeep =>
      refine .tooDeep limit rest ?_
      rw [hlevel]
      exact hdeep
  | stops pre next s heq hstop hblames hall hcomplete =>
      refine .stops pre next s heq ?_ hblames (fun t tail hnext d' hd tail' => ?_) fun hpre => ?_
      · rw [hlevel]
        exact hstop
      · rcases happly hd with ⟨k, hk, hxy⟩
        rw [hxy]
        exact hall t tail hnext k hk tail'
      · rcases hcomplete hpre with ⟨more, least, hmore⟩
        refine ⟨more, least + 1, fun d' hd k hk => ?_⟩
        rcases d' with _ | d'
        · cases hd
        · rw [hlevel]
          exact hmore d' (Nat.le_of_succ_le_succ hd) k hk

/-- The next but one token decides between phrases, of which the second one can also be over with
the first token alone. -/
theorem Foresees.of_next {t : Located} {rest : Tokens} {A : Tokens → Prop}
    (hA : ∀ k k', A k → k'.head? = k.head? → A k') (hFA : ∀ k, F k → A k) (hF : F [])
    (hrest : A rest) (hhead : ∀ d' tail, A tail → x d' (t :: tail) = y d' (t :: tail))
    (halone : Fills y F least [t]) (h : Foresees y F d (t :: rest)) :
    Foresees x F d (t :: rest) := by
  have hbegun {pre next : Tokens} (heq : t :: rest = pre ++ next) (hpre : pre ≠ []) :
      ∃ pre', pre = t :: pre' ∧ rest = pre' ++ next := by
    rcases List.exists_cons_of_ne_nil hpre with ⟨u, pre', rfl⟩
    cases heq
    exact ⟨pre', rfl, rfl⟩
  have hsame {pre' next tail : Tokens} (heq : rest = pre' ++ next)
      (htail : pre' = [] → A tail) (d' : Nat) :
      x d' (t :: (pre' ++ tail)) = y d' (t :: (pre' ++ tail)) := by
    refine hhead d' _ ?_
    rcases pre' with _ | ⟨u, pre'⟩
    · exact htail rfl
    · exact hA rest _ hrest (by rw [heq]; rfl)
  -- the second phrase passes the first token
  have hpasses (d' : Nat) (hd : d ≤ d') : ∃ e, d' ≤ e ∧ ∃ a, y e [t] = .ok (a, []) := by
    rcases halone (max least d') [] (Nat.le_max_left ..) hF with ⟨a, ha⟩
    exact ⟨max least d', Nat.le_max_right .., a, ha⟩
  have hself : x d (t :: rest) = y d (t :: rest) := hhead d rest hrest
  cases h with
  | reads pre next a heq hread =>
      have hpre : pre ≠ [] := by
        rintro rfl
        rcases hpasses d (Nat.le_refl d) with ⟨e, he, a', ha'⟩
        have hnone := hread e he [t] (.inl (by rw [List.nil_append] at heq; rw [← heq]; rfl))
        rw [List.nil_append] at hnone
        cases ha'.symm.trans hnone
      rcases hbegun heq hpre with ⟨pre', rfl, hrest'⟩
      refine .reads (t :: pre') next a heq fun d' hd k hk => ?_
      refine (hsame hrest' (fun hnil => ?_) d').trans (hread d' hd k hk)
      subst hnil
      rw [List.nil_append] at hrest'
      exact hk.elim (hA rest k hrest <| hrest' ▸ ·) (hFA k)
  | tooDeep limit rest' hdeep => exact .tooDeep limit rest' (hself.trans hdeep)
  | stops pre next s heq hstop hblames hall hcomplete =>
      have hpre : pre ≠ [] := by
        rintro rfl
        rcases hpasses d (Nat.le_refl d) with ⟨e, he, a, ha⟩
        rcases hall t rest heq.symm e he [] with ⟨s', hs'⟩
        cases ha.symm.trans hs'
      rcases hbegun heq hpre with ⟨pre', rfl, hrest'⟩
      refine .stops (t :: pre') next s heq (hself.trans hstop) hblames
        (fun u tail hcons d' hd tail' => ?_) fun _ => ?_
      · rcases hall u tail hcons d' hd tail' with ⟨s', hs'⟩
        refine ⟨s', (hsame hrest' (fun hnil => ?_) d').trans hs'⟩
        subst hnil hcons
        exact hA rest _ hrest (by rw [hrest']; rfl)
      · by_cases hnil : pre' = []
        · subst hnil
          refine ⟨[], least, fun d' hd k hk => ?_⟩
          rcases halone d' k hd hk with ⟨a, ha⟩
          exact ⟨a, (hhead d' k (hFA k hk)).trans ha⟩
        · rcases hcomplete hpre with ⟨more, least', hmore⟩
          refine ⟨more, least', fun d' hd k hk => ?_⟩
          rcases hmore d' hd k hk with ⟨a, ha⟩
          exact ⟨a, (hsame hrest' (absurd · hnil) d').trans ha⟩

end Rules

end Parser

end Script
end ScriptHost
