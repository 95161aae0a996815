import Polycube.Polycubed.LogCalls

/-!
# The rewriting is right for plain sources

One after the other the three passes are followed through the parts of a source: the comments go,
the calls become blocks, and what stands in a block is what stood in the call.
-/

namespace Polycube.Polycubed.DatapathLog

open Function Lib Lib.Regex

section Passes

variable {β : Type} {k : Place Char → Option β} {g : ℕ → Text} {t : Text} {b : β}

variable {body : Text}

theorem first_line (h : LineBody t body) (rest : k (t, g) = some b) :
    (star true (alt (lit splice) (one (· ≠ '\n')))).first k (body ++ t, g) = some b := by
  induction body using LineBody.induct with
  | case1 =>
    rw [List.nil_append, first_star, if_pos rfl]
    cases t with
    | nil => exact rest
    | cons c t =>
      have newline : c = '\n' := h c rfl
      subst newline
      exact rest
  | case2 =>
    have ends : t = [] := h
    subst ends
    show (k ([], g)).or _ = some b
    rw [rest]
    rfl
  | case3 body ih =>
    have more := ih h
    have spliced : (lit splice).first (guarded ('\\' :: '\n' :: (body ++ t), g)
        ((star true (alt (lit splice) (one (· ≠ '\n')))).first k))
        ('\\' :: '\n' :: (body ++ t), g) = some b := by
      refine (first_lit_append _ g (body ++ t) splice).trans ?_
      exact (if_pos (by simp)).trans more
    show (star true _).first k ('\\' :: '\n' :: (body ++ t), g) = some b
    rw [first_star, if_pos rfl, first_alt, spliced]
    rfl
  | case4 c body ne ne' ih =>
    rw [LineBody.eq_4 t c body ne ne'] at h
    obtain ⟨inside, h⟩ := h
    have more := ih h
    have unspliced : ¬ splice <+: c :: (body ++ t) := by
      intro head
      obtain ⟨same, next⟩ := List.cons_prefix_cons.1 head
      cases body with
      | nil => exact ne same.symm rfl
      | cons d body =>
        obtain ⟨newline, -⟩ := List.cons_prefix_cons.1 next
        exact ne' body same.symm (by rw [newline])
    show (star true _).first k (c :: (body ++ t), g) = some b
    rw [first_star, if_pos rfl, first_alt, first_lit_none _ _ unspliced, Option.none_or, first_one,
      if_pos (decide_eq_true inside), guarded_tail, more]
    rfl

theorem match_line (h : LineBody t body) :
    regComments.match? ((Comment.line body).text ++ t) = some (t, fun _ => []) := by
  have whole : lineComment.first some ((Comment.line body).text ++ t, fun _ => []) =
      some (t, fun _ => []) :=
    (first_lit_append _ _ (body ++ t) ['/', '/']).trans (first_line h rfl)
  unfold match? regComments
  rw [first_alt, whole]
  rfl

theorem match_block (h : ¬ ['*', '/'] <:+: body) :
    regComments.match? ((Comment.block body).text ++ t) = some (t, fun _ => []) := by
  have noLine : lineComment.first some ((Comment.block body).text ++ t, fun _ => []) = none :=
    first_lit_none _ _ (fun c => by simp [Comment.text] at c)
  have early (y z : Text) (split : body = y ++ z) (ne : z ≠ []) :
      (lit ['*', '/']).first some (z ++ (['*', '/'] ++ t), fun _ => []) = none := by
    refine first_lit_none _ _ fun head => ?_
    match z, ne with
    | [d], _ =>
      obtain ⟨-, next⟩ := List.cons_prefix_cons.1 head
      exact absurd (List.cons_prefix_cons.1 next).1 (by decide)
    | d :: e :: z, _ =>
      obtain ⟨rfl, next⟩ := List.cons_prefix_cons.1 head
      obtain ⟨rfl, -⟩ := List.cons_prefix_cons.1 next
      exact h ⟨y, z, by rw [split]; simp⟩
  have whole : blockComment.first some ((Comment.block body).text ++ t, fun _ => []) =
      some (t, fun _ => []) := by
    have shape : (Comment.block body).text ++ t = ['/', '*'] ++ (body ++ (['*', '/'] ++ t)) := by
      simp [Comment.text]
    rw [shape]
    refine (first_lit_append _ _ _ ['/', '*']).trans ?_
    refine first_lazy _ _ _ (fun _ _ => rfl) early ?_
    exact first_lit_append _ _ t ['*', '/']
  unfold match? regComments
  rw [first_alt, noLine, Option.none_or, first_alt, whole]
  rfl

/-! ### Literals -/

variable {q c : Char}

theorem quotedBody_plain (plain : c ≠ '\\') :
    QuotedBody q (c :: body) ↔ c ≠ q ∧ c ≠ '\n' ∧ QuotedBody q body := by
  rw [QuotedBody.eq_3 q c body fun _ _ escape _ => plain escape]
  exact ⟨fun h => ⟨h.1, h.2.2⟩, fun h => ⟨h.1, plain, h.2⟩⟩

theorem quotedBody_cons (h : QuotedBody q (c :: body)) :
    (c = '\\' ∧ ∃ e body', body = e :: body' ∧ QuotedBody q body') ∨ c ≠ '\\' := by
  by_cases escape : c = '\\'
  · subst escape
    cases body with
    | nil =>
      rw [QuotedBody.eq_3 q _ [] fun _ _ _ c => by cases c] at h
      exact absurd rfl h.2.1
    | cons e body => exact .inl ⟨rfl, e, body, rfl, h⟩
  · exact .inr escape

/-- One step of an expression through the body of a literal that is closed by `q`. -/
def StepsThrough (q : Char) (r : Regex Char) : Prop :=
  ∀ {body : Text}, QuotedBody q body → body ≠ [] → ∃ x body', body = x ++ body' ∧ x ≠ [] ∧
    QuotedBody q body' ∧ ∀ {β : Type} (k : Place Char → Option β) (t : Text) (g : ℕ → Text) {b : β},
      k (body' ++ q :: t, g) = some b → r.first k (body ++ q :: t, g) = some b

theorem first_pair_none (k : Place Char → Option β) (g : ℕ → Text) {d d' : Char} (t : Text)
    (ne : d' ≠ d) : (lit ['\\', d]).first k ('\\' :: d' :: t, g) = none :=
  first_lit_none k g fun head =>
    ne (List.cons_prefix_cons.1 (List.cons_prefix_cons.1 head).2).1.symm

theorem escapes_one (k : Place Char → Option β) (t : Text) (g : ℕ → Text) (ne : c ≠ q)
    (single : ∀ d : Char, d = '\\' ∨ d = q ∨ d = '\n' → ¬ ['\\', d] <+: c :: t) :
    (escapes q).first k (c :: t, g) = k (t, g) := by
  unfold escapes
  rw [first_alt, first_lit_none k g (single _ (.inl rfl)), Option.none_or, first_alt,
    first_lit_none k g (single _ (.inr (.inl rfl))), Option.none_or, first_alt]
  unfold splice
  rw [first_lit_none k g (single _ (.inr (.inr rfl))), Option.none_or, first_one,
    if_pos (decide_eq_true ne)]

theorem stepsThrough_escapes (quote : q ≠ '\\') : StepsThrough q (escapes q) := by
  intro body h some
  cases body with
  | nil => exact absurd rfl some
  | cons c body =>
    rcases quotedBody_cons h with ⟨rfl, e, body, rfl, h⟩ | plain
    · have taken {β : Type} (k : Place Char → Option β) (t : Text) (g : ℕ → Text) :=
        first_lit_append k g (body ++ q :: t) ['\\', e]
      by_cases slash : e = '\\'
      · subst slash
        refine ⟨['\\', '\\'], body, rfl, List.cons_ne_nil _ _, h, fun k t g b rest => ?_⟩
        exact Option.or_eq_some_iff.2 (.inl ((taken k t g).trans rest))
      by_cases closes : e = q
      · subst closes
        refine ⟨['\\', e], body, rfl, List.cons_ne_nil _ _, h, fun k t g b rest => ?_⟩
        have none := first_pair_none k g (body ++ e :: t) slash
        show (escapes e).first k ('\\' :: e :: (body ++ e :: t), g) = Option.some b
        unfold escapes
        rw [first_alt, none, Option.none_or]
        exact Option.or_eq_some_iff.2 (.inl ((taken k t g).trans rest))
      by_cases newline : e = '\n'
      · subst newline
        refine ⟨['\\', '\n'], body, rfl, List.cons_ne_nil _ _, h, fun k t g b rest => ?_⟩
        have none := first_pair_none k g (body ++ q :: t) slash
        have none' := first_pair_none k g (body ++ q :: t) closes
        show (escapes q).first k ('\\' :: '\n' :: (body ++ q :: t), g) = Option.some b
        unfold escapes
        rw [first_alt, none, Option.none_or, first_alt, none', Option.none_or]
        exact Option.or_eq_some_iff.2 (.inl ((taken k t g).trans rest))
      · have h' : QuotedBody q (e :: body) := (quotedBody_plain slash).2 ⟨closes, newline, h⟩
        refine ⟨['\\'], e :: body, rfl, List.cons_ne_nil _ _, h', fun k t g b rest => ?_⟩
        refine (escapes_one k (e :: (body ++ q :: t)) g quote.symm ?_).trans rest
        intro d among head
        have same := (List.cons_prefix_cons.1 (List.cons_prefix_cons.1 head).2).1
        subst same
        rcases among with rfl | rfl | rfl
        · exact slash rfl
        · exact closes rfl
        · exact newline rfl
    · obtain ⟨ne, -, h'⟩ := (quotedBody_plain plain).1 h
      refine ⟨[c], body, rfl, List.cons_ne_nil _ _, h', fun k t g b rest => ?_⟩
      refine (escapes_one k (body ++ q :: t) g ne fun d _ head => ?_).trans rest
      exact plain (List.cons_prefix_cons.1 head).1.symm

theorem stepsThrough_string :
    StepsThrough '"' (alt (lit ['?', '?', '\'']) (escapes '"')) := by
  intro body h some
  by_cases trigraph : ∃ body', body = ['?', '?', '\''] ++ body'
  · obtain ⟨body, rfl⟩ := trigraph
    have h' := ((quotedBody_plain (by decide)).1 h).2.2
    have h' := ((quotedBody_plain (by decide)).1 h').2.2
    have h' := ((quotedBody_plain (by decide)).1 h').2.2
    refine ⟨['?', '?', '\''], body, rfl, List.cons_ne_nil _ _, h', fun k t g b rest => ?_⟩
    have taken := first_lit_append k g (body ++ '"' :: t) ['?', '?', '\'']
    exact Option.or_eq_some_iff.2 (.inl (taken.trans rest))
  · obtain ⟨x, body', split, ne, h', taken⟩ := stepsThrough_escapes (by decide) h some
    refine ⟨x, body', split, ne, h', fun k t g b rest => ?_⟩
    rw [first_alt, first_lit_none k g, Option.none_or]
    · exact taken k t g rest
    · intro head
      match body with
      | [] => exact some rfl
      | [c] =>
        have next := (List.cons_prefix_cons.1 head).2
        exact absurd (List.cons_prefix_cons.1 next).1 (by decide)
      | [c, d] =>
        have next := (List.cons_prefix_cons.1 (List.cons_prefix_cons.1 head).2).2
        exact absurd (List.cons_prefix_cons.1 next).1 (by decide)
      | c :: d :: e :: body =>
        obtain ⟨rfl, second⟩ := List.cons_prefix_cons.1 head
        obtain ⟨rfl, third⟩ := List.cons_prefix_cons.1 second
        obtain ⟨rfl, -⟩ := List.cons_prefix_cons.1 third
        exact trigraph ⟨body, rfl⟩

theorem first_quoted {r : Regex Char} (h : QuotedBody q body)
    (quote : q ≠ '\\') (step : StepsThrough q r)
    (inside : ∀ c u, c ≠ q → k (c :: u, g) = none) (rest : k (q :: t, g) = some b) :
    (star false r).first k (body ++ q :: t, g) = some b := by
  induction length : body.length using Nat.strongRecOn generalizing body with
  | ind n ih =>
    cases body with
    | nil =>
      rw [List.nil_append, first_star, rest]
      rfl
    | cons c body =>
      have ne : c ≠ q := by
        rcases quotedBody_cons h with ⟨rfl, -⟩ | plain
        · exact quote.symm
        · exact ((quotedBody_plain plain).1 h).1
      obtain ⟨x, body', split, some, h', taken⟩ := step h (List.cons_ne_nil c body)
      have shorter : body'.length < (c :: body).length := by
        rw [split, List.length_append]
        have := List.length_pos_of_ne_nil some
        omega
      have more := ih body'.length (by omega) h' rfl
      have here : k (c :: (body ++ q :: t), g) = none := inside c _ ne
      show (star false r).first k (c :: (body ++ q :: t), g) = _
      rw [first_star, here]
      refine taken _ t g ?_
      refine (if_pos ?_).trans more
      show (body' ++ q :: t).length < (c :: (body ++ q :: t)).length
      simp at shorter ⊢
      omega

theorem match_quoted {q : Quote} (h : QuotedBody q.char body) :
    ∃ g, regComments.match? ((Piece.quoted q body).text ++ t) = some (t, g) ∧
      g 1 = (Piece.quoted q body).text := by
  have shape : (Piece.quoted q body).text ++ t = q.char :: (body ++ q.char :: t) := by
    simp [Piece.text]
  have taken : (q.char :: (body ++ q.char :: t)).take
      ((q.char :: (body ++ q.char :: t)).length - t.length) = (Piece.quoted q body).text := by
    rw [← shape, List.length_append, Nat.add_sub_cancel, List.take_left]
  refine ⟨update (fun _ => []) 1 (Piece.quoted q body).text, ?_, update_self ..⟩
  rw [shape]
  cases q with
  | double =>
    show ((string.first _ _).or _) = _
    refine Option.or_eq_some_iff.2 (.inl ?_)
    refine first_quoted h (by decide) stepsThrough_string (fun c u ne => ?_) ?_
    · exact if_neg fun c => ne (of_decide_eq_true c)
    · exact congrArg (fun x => some (t, update _ 1 x)) taken
  | single =>
    refine first_quoted h (by decide) (stepsThrough_escapes (by decide)) (fun c u ne => ?_) ?_
    · exact if_neg fun c => ne (of_decide_eq_true c)
    · exact congrArg (fun x => some (t, update _ 1 x)) taken

variable {s s' : Place Char}

theorem takes_char (h : Takes (one (· = c)) s s') : s.1 = c :: s'.1 ∧ s'.2 = s.2 := by
  obtain ⟨d, same, split, groups⟩ := takes_one h
  rw [split, of_decide_eq_true same]
  exact ⟨rfl, groups⟩

theorem takes_rawString (h : Takes rawString (c :: t, g) s) : c = 'R' ∧ RawLike t := by
  obtain ⟨s₁, opens, tail⟩ := takes_seq h
  obtain ⟨s₂, delimiter, tail⟩ := takes_seq tail
  obtain ⟨s₃, parenthesis, tail⟩ := takes_seq tail
  obtain ⟨s₄, inside, tail⟩ := takes_seq tail
  obtain ⟨s₅, closes, tail⟩ := takes_seq tail
  obtain ⟨s₆, again, quote⟩ := takes_seq tail
  obtain ⟨s', delimiter, same, group⟩ := takes_group delimiter
  obtain ⟨d, allowed, short, split⟩ := takes_upTo delimiter
  obtain ⟨x, within, split', groups⟩ := takes_star_one inside
  obtain ⟨rfl, start⟩ := List.cons.inj (takes_lit opens)
  have taken : s₂.2 2 = d := by
    rw [group, split, List.length_append, Nat.add_sub_cancel, List.take_left]
  have whole : s₅.1 = d ++ '"' :: s.1 := by
    rw [takes_back again, (takes_char closes).2, groups, (takes_char parenthesis).2, taken,
      (takes_char quote).1]
  refine ⟨rfl, d, x, s.1, short, fun c mem => allowed c mem, fun mem => ?_, ?_⟩
  · have ne := of_decide_eq_true (within _ mem)
    exact ne rfl
  · rw [start, split, ← same, (takes_char parenthesis).1, split', (takes_char closes).1, whole]
    rfl

/-- No comment and no literal begins with a character of code. -/
theorem match_code (plain : Plainly c t) (raw : c = 'R' → ¬ RawLike t)
    (prefixed : c = '@' → ∀ d ∈ t.head?, d ≠ '"') :
    regComments.match? (c :: t) = none := by
  obtain ⟨noDouble, noSingle, slash, -⟩ := plain
  have pair {d e : Char} (next : c = d → ∀ e' ∈ t.head?, e' ≠ e) : ¬ [d, e] <+: c :: t := by
    intro head
    obtain ⟨same, tail⟩ := List.cons_prefix_cons.1 head
    cases t with
    | nil => cases List.prefix_nil.1 tail
    | cons e' t => exact next same.symm e' rfl (List.cons_prefix_cons.1 tail).1.symm
  have line : lineComment.first some (c :: t, fun _ => []) = none :=
    first_lit_none _ _ (pair fun same e mem => (slash same e mem).1)
  have block : blockComment.first some (c :: t, fun _ => []) = none :=
    first_lit_none _ _ (pair fun same e mem => (slash same e mem).2)
  have raw (k : Place Char → Option (Place Char)) :
      rawString.first k (c :: t, fun _ => []) = none :=
    first_eq_none fun s' taken => absurd (takes_rawString taken).2 (raw (takes_rawString taken).1)
  have at_ (k : Place Char → Option (Place Char)) :
      atString.first k (c :: t, fun _ => []) = none :=
    first_lit_none _ _ (pair fun same => prefixed same)
  have double (k : Place Char → Option (Place Char)) :
      string.first k (c :: t, fun _ => []) = none :=
    if_neg fun same => noDouble (of_decide_eq_true same)
  have single (k : Place Char → Option (Place Char)) :
      character.first k (c :: t, fun _ => []) = none :=
    if_neg fun same => noSingle (of_decide_eq_true same)
  unfold match? regComments
  rw [first_alt, line, Option.none_or, first_alt, block, Option.none_or, first_group, first_alt,
    raw, Option.none_or, first_alt, at_, Option.none_or, first_alt, double, single]
  rfl

theorem match_splice : regComments.match? ('\\' :: '\n' :: t) = none ∧
    regComments.match? ('\n' :: t) = none := ⟨rfl, rfl⟩

theorem replace_regComments {parts : List Part} (lexed : Lexed parts)
    (unprefixed : Unprefixed parts) :
    replace regComments (fun groups => groups 1) (sourceText parts) = text (stripped parts) := by
  induction parts with
  | nil => rfl
  | cons part parts ih =>
    match part with
    | .comment (.line body) =>
      exact (replace_taken (match_line lexed.1) (List.cons_ne_nil _ _)).trans
        (ih lexed.2 unprefixed)
    | .comment (.block body) =>
      exact (replace_taken (match_block lexed.1) (List.cons_ne_nil _ _)).trans
        (ih lexed.2 unprefixed)
    | .piece (.code c) =>
      have rest := ih lexed.2 unprefixed.2
      have stays := match_code lexed.1 unprefixed.1.1 unprefixed.1.2
      show replace regComments _ (c :: sourceText parts) = c :: text (stripped parts)
      rw [replace_skip stays, rest]
    | .piece .splice =>
      have rest := ih lexed unprefixed
      show replace regComments _ ('\\' :: '\n' :: sourceText parts) =
        '\\' :: '\n' :: text (stripped parts)
      rw [replace_skip match_splice.1, replace_skip match_splice.2, rest]
    | .piece (.quoted q body) =>
      obtain ⟨g, taken, group⟩ := match_quoted (t := sourceText parts) lexed.1
      refine (replace_taken taken (List.cons_ne_nil _ _)).trans ?_
      rw [group, ih lexed.2 unprefixed]
      rfl

def callEnd : Regex Char := seq (one (· = ')')) (seq (star true (one isspace)) (one (· = ';')))

theorem takes_callEnd (h : Takes callEnd s s') :
    ∃ w, (∀ c ∈ w, isspace c = true) ∧ s.1 = ')' :: (w ++ ';' :: s'.1) := by
  obtain ⟨_, closes, tail⟩ := takes_seq h
  obtain ⟨_, spaces, last⟩ := takes_seq tail
  obtain ⟨w, blank, split, -⟩ := takes_star_one spaces
  exact ⟨w, blank, by rw [(takes_char closes).1, split, (takes_char last).1]⟩

theorem takes_regN (h : Takes regN s s') : CallLike s.1 := by
  obtain ⟨_, word, tail⟩ := takes_seq h
  obtain ⟨_, spaces, tail⟩ := takes_seq tail
  obtain ⟨_, opens, tail⟩ := takes_seq tail
  obtain ⟨_, args, closes⟩ := takes_seq tail
  obtain ⟨w, blank, split, -⟩ := takes_star_one spaces
  obtain ⟨_, args, same, -⟩ := takes_group args
  obtain ⟨x, -, some, inside⟩ := takes_plus_one args
  obtain ⟨w', blank', ends⟩ := takes_callEnd closes
  refine ⟨w, x, w', s'.1, blank, some, blank', ?_⟩
  rw [takes_lit word, split, (takes_char opens).1, inside, ← same, ends]

theorem match_regN_none (h : ¬ CallLike t) : regN.match? t = none :=
  first_eq_none fun _ taken => absurd (takes_regN taken) h

variable {x : Text}

theorem match_regN {w w' : Text} (blank : ∀ c ∈ w, isspace c = true) (some : x ≠ [])
    (blank' : ∀ c ∈ w', isspace c = true)
    (inside : ∀ y v z, (∀ c ∈ v, isspace c = true) → x ≠ y ++ ')' :: (v ++ ';' :: z)) :
    ∃ g, regN.match? (name ++ (w ++ '(' :: (x ++ ')' :: (w' ++ ';' :: t)))) = Option.some (t, g) ∧
      g 1 = x := by
  let after : Text := ')' :: (w' ++ ';' :: t)
  have early (g : ℕ → Text) (y z : Text) (split : x = y ++ z) (ne : z ≠ []) :
      callEnd.first Option.some (z ++ after, g) = none := by
    refine first_eq_none fun s' taken => ?_
    obtain ⟨v, blanks, found⟩ := takes_callEnd taken
    cases z with
    | nil => exact absurd rfl ne
    | cons c z =>
      obtain ⟨rfl, within⟩ : c = ')' ∧ z ++ after = v ++ ';' :: s'.1 := List.cons.inj found
      rcases List.append_eq_append_iff.1 within with ⟨m, rfl, ends⟩ | ⟨m, rfl, ends⟩
      · cases m with
        | nil => exact absurd (List.cons.inj ends).1 (by decide)
        | cons d m =>
          obtain ⟨rfl, -⟩ := List.cons.inj ends
          have space := blanks ')' (List.mem_append_right z List.mem_cons_self)
          cases space
      · cases m with
        | nil => cases ends
        | cons d m =>
          obtain ⟨rfl, -⟩ := List.cons.inj ends
          exact absurd split (inside y v m blanks)
  have closes (g : ℕ → Text) : callEnd.first Option.some (after, g) = Option.some (t, g) := by
    show (star true (one isspace)).first _ (w' ++ ';' :: t, g) = _
    exact first_greedy _ g _ blank' (fun c mem => by cases mem; decide) rfl
  refine ⟨update (fun _ => []) 1 x, ?_, update_self ..⟩
  refine (first_lit_append _ _ _ name).trans ?_
  refine first_greedy _ _ _ blank (fun c mem => by cases mem; decide) ?_
  show (group 1 (plus false (one fun _ => true))).first (callEnd.first Option.some)
    (x ++ after, fun _ => []) = _
  rw [first_group]
  cases x with
  | nil => exact absurd rfl some
  | cons c x =>
    show (star false (one fun _ => true)).first _ (x ++ after, fun _ => []) = _
    refine first_lazy _ _ _ (fun _ _ => rfl) (fun y z split ne => ?_) ?_
    · exact early _ (c :: y) z (by rw [split]; rfl) ne
    · have taken : ((c :: x) ++ after).take (((c :: x) ++ after).length - after.length) =
          c :: x := by
        rw [List.length_append, Nat.add_sub_cancel, List.take_left]
      refine (closes _).trans ?_
      exact congrArg (fun x => Option.some (t, update _ 1 x)) taken

def kept (c : Char) : Bool := c ≠ '\r' && c ≠ '\n'

theorem takes_regNewLine (h : Takes regNewLine (c :: t, g) s) :
    (c = '/' ∧ ['\r', '\n'] <+: t) ∨ c = '\r' ∨ c = '\n' ∨
      (c = '\t' ∧ ['\t', '/', 'i'] <:+: c :: t) := by
  rcases takes_alt h with h | h
  · obtain ⟨_, slash, tail⟩ := takes_seq h
    obtain ⟨_, head, -⟩ := takes_seq tail
    obtain ⟨_, breaks, -, -⟩ := takes_group head
    obtain ⟨rfl, rfl⟩ := List.cons.inj (takes_char slash).1
    exact .inl ⟨rfl, _, (takes_lit breaks).symm⟩
  rcases takes_alt h with h | h
  · obtain ⟨_, head, -⟩ := takes_seq h
    exact .inr (.inl (List.cons.inj (takes_char head).1).1)
  rcases takes_alt h with h | h
  · obtain ⟨_, head, -⟩ := takes_seq h
    exact .inr (.inr (.inl (List.cons.inj (takes_char head).1).1))
  · obtain ⟨_, tabs, tail⟩ := takes_seq h
    obtain ⟨x, all, some, split⟩ := takes_plus_one tabs
    replace split : c :: t = x ++ (['/', 'i'] ++ s.1) := by
      rw [takes_lit tail] at split
      exact split
    have tab : x.getLast some = '\t' := of_decide_eq_true (all _ (List.getLast_mem some))
    have inside' : ['\t', '/', 'i'] <:+: c :: t := by
      refine ⟨x.dropLast, s.1, ?_⟩
      rw [split, ← List.dropLast_append_getLast some, tab]
      simp
    refine .inr (.inr (.inr ⟨?_, inside'⟩))
    cases x with
    | nil => exact absurd rfl some
    | cons d x =>
      rw [(List.cons.inj split).1]
      exact of_decide_eq_true (all d List.mem_cons_self)

/-- A run of one character at the beginning, as long as it goes. -/
theorem run_split (d : Char) (t : Text) : ∃ x u, t = x ++ u ∧ (∀ c ∈ x, c = d) ∧
    ∀ c ∈ u.head?, c ≠ d := by
  refine ⟨t.takeWhile fun c => c = d, t.dropWhile fun c => c = d,
    List.takeWhile_append_dropWhile.symm, fun c mem => ?_, fun c mem => ?_⟩
  · exact of_decide_eq_true (List.mem_takeWhile_imp (p := fun c => decide (c = d)) mem)
  · have stop := List.head?_dropWhile_not (fun c => decide (c = d)) t
    rw [Option.mem_def.1 mem] at stop
    exact of_decide_eq_false stop

theorem match_run {d : Char} (all : ∀ c ∈ x, c = d) (stop : ∀ c ∈ t.head?, c ≠ d)
    {k : Place Char → Option β} (rest : k (t, g) = some b) :
    (plus true (one (· = d))).first k (d :: (x ++ t), g) = some b := by
  show (if decide (d = d) = true then _ else none) = some b
  rw [if_pos (decide_eq_true rfl)]
  exact first_greedy _ _ _ (fun c mem => decide_eq_true (all c mem))
    (fun c mem => decide_eq_false (stop c mem)) rest

theorem replace_regNewLine (noSlash : ¬ ['/', '\r', '\n'] <:+: t)
    (noTab : ¬ ['\t', '/', 'i'] <:+: t) :
    replace regNewLine (fun _ => []) t = t.filter kept := by
  induction length : t.length using Nat.strongRecOn generalizing t with
  | ind n ih =>
    cases t with
    | nil => rfl
    | cons c t =>
      have noSlash' : ¬ ['/', '\r', '\n'] <:+: t := mt (List.infix_cons ·) noSlash
      have noTab' : ¬ ['\t', '/', 'i'] <:+: t := mt (List.infix_cons ·) noTab
      have rest := ih t.length (by rw [← length]; exact Nat.lt_succ_self _) noSlash' noTab' rfl
      have run (d : Char) (goes : kept d = false) (same : c = d) (taken : ∀ (u x : Text),
          (∀ c ∈ x, c = d) → (∀ c ∈ u.head?, c ≠ d) →
            ∃ g, regNewLine.match? (d :: (x ++ u)) = some (u, g)) :
          replace regNewLine (fun _ => []) (c :: t) = (c :: t).filter kept := by
        obtain ⟨x, u, rfl, all, stop⟩ := run_split d t
        obtain ⟨g, taken⟩ := taken u x all stop
        have gone : (d :: x).filter kept = [] := by
          refine List.filter_eq_nil_iff.2 fun e mem => ?_
          rcases List.mem_cons.1 mem with rfl | mem
          · rw [goes]
            decide
          · rw [all e mem, goes]
            decide
        have shorter : u.length < n := by
          rw [← length, List.length_cons, List.length_append]
          omega
        have less : u.length ≤ (x ++ u).length := by
          rw [List.length_append]
          omega
        have rest := ih u.length shorter (mt List.infix_append_of_infix_right noSlash')
          (mt List.infix_append_of_infix_right noTab') rfl
        rw [same, replace_match taken less, rest, ← List.cons_append, List.filter_append, gone]
      by_cases cr : c = '\r'
      · refine run '\r' rfl cr fun u x all stop => ⟨fun _ => [], ?_⟩
        show ((plus true (one (· = '\r'))).first some ('\r' :: (x ++ u), fun _ => [])).or _ = _
        rw [match_run all stop rfl]
        rfl
      by_cases lf : c = '\n'
      · refine run '\n' rfl lf fun u x all stop => ⟨fun _ => [], ?_⟩
        show ((plus true (one (· = '\n'))).first some ('\n' :: (x ++ u), fun _ => [])).or _ = _
        rw [match_run all stop rfl]
        rfl
      · have none : regNewLine.match? (c :: t) = none := by
          refine first_eq_none fun s' taken => ?_
          rcases takes_regNewLine taken with ⟨rfl, pre⟩ | same | same | ⟨-, tab⟩
          · obtain ⟨u, rfl⟩ := pre
            exact absurd ⟨[], u, rfl⟩ noSlash
          · exact absurd same cr
          · exact absurd same lf
          · exact absurd tab noTab
        have stays : kept c = true := by simp [kept, cr, lf]
        rw [replace_skip none, rest, List.filter_cons_of_pos stays]

def squeeze : Text → Text
  | [] => []
  | c :: t => if c = ' ' ∧ t.head? = some ' ' then squeeze t else c :: squeeze t

theorem replace_regAddSpaces (t : Text) :
    replace regAddSpaces (fun _ => [' ']) t = squeeze t := by
  induction length : t.length using Nat.strongRecOn generalizing t with
  | ind n ih =>
    cases t with
    | nil => rfl
    | cons c t =>
      by_cases space : c = ' '
      · obtain ⟨x, u, rfl, all, stop⟩ := run_split ' ' t
        have taken : regAddSpaces.match? (' ' :: (x ++ u)) = some (u, fun _ => []) :=
          match_run all stop rfl
        have less : u.length ≤ (x ++ u).length := by
          rw [List.length_append]
          omega
        have rest := ih u.length (by rw [← length, List.length_cons]; omega) u rfl
        rw [space, replace_match taken less, rest]
        clear ih length taken less rest space
        induction x with
        | nil =>
          have last : ¬ (' ' = ' ' ∧ u.head? = some ' ') := fun c => stop ' ' c.2 rfl
          exact (if_neg last).symm
        | cons d x ih =>
          have same := all d List.mem_cons_self
          subst same
          refine (ih fun c mem => all c (List.mem_cons_of_mem _ mem)).trans ?_
          exact (if_pos ⟨rfl, rfl⟩).symm
      · have none : regAddSpaces.match? (c :: t) = none := by
          refine first_eq_none fun s' taken => ?_
          obtain ⟨_, head, -⟩ := takes_seq taken
          exact absurd (List.cons.inj (takes_char head).1).1 space
        have rest := ih t.length (by rw [← length]; exact Nat.lt_succ_self _) t rfl
        rw [replace_skip none, rest]
        exact (if_neg fun c => space c.1).symm

/-! ### Arguments -/

def squeezed : List Piece → List Piece
  | [] => []
  | p :: ps => if p = .code ' ' ∧ ps.head? = some (.code ' ') then squeezed ps else p :: squeezed ps

def unbroken (ps : List Piece) : List Piece := ps.filter fun p => !p.breaks

variable {p : Piece}

theorem unbroken_cons_of_breaks (ps : List Piece) (goes : p.breaks = true) :
    unbroken (p :: ps) = unbroken ps := List.filter_cons_of_neg (by rw [goes]; decide)

theorem unbroken_cons (ps : List Piece) (stays : p.breaks = false) :
    unbroken (p :: ps) = p :: unbroken ps :=
  List.filter_cons_of_pos (p := fun p : Piece => !p.breaks) (by rw [stays]; rfl)

theorem head_text (ps : List Piece) :
    (text ps).head? = some ' ' ↔ ps.head? = some (.code ' ') := by
  match ps with
  | [] => exact ⟨(nomatch ·), (nomatch ·)⟩
  | .code c :: ps =>
    show some c = some ' ' ↔ some (Piece.code c) = some (.code ' ')
    simp
  | .splice :: ps =>
    show some '\\' = some ' ' ↔ some Piece.splice = some (.code ' ')
    simp
  | .quoted q body :: ps =>
    show some q.char = some ' ' ↔ some (Piece.quoted q body) = some (.code ' ')
    cases q <;> simp [Quote.char]

theorem squeeze_append (t : Text) (single : ¬ [' ', ' '] <:+: x)
    (last : x.getLast? ≠ some ' ') : squeeze (x ++ t) = x ++ squeeze t := by
  induction x with
  | nil => rfl
  | cons c x ih =>
    have stays : ¬ (c = ' ' ∧ (x ++ t).head? = some ' ') := by
      rintro ⟨rfl, next⟩
      cases x with
      | nil => exact last rfl
      | cons d x =>
        have same : d = ' ' := Option.some.inj next
        subst same
        exact single ⟨[], x, rfl⟩
    have last' : x.getLast? ≠ some ' ' := by
      intro h
      cases x with
      | nil => cases h
      | cons d x => exact last (by rwa [List.getLast?_cons_cons])
    show (if c = ' ' ∧ (x ++ t).head? = some ' ' then squeeze (x ++ t)
      else c :: squeeze (x ++ t)) = _
    rw [if_neg stays, ih (mt (List.infix_cons ·) single) last']
    rfl

theorem quote_ne_space (q : Quote) : q.char ≠ ' ' := by cases q <;> decide

theorem single_quoted {q : Quote} (single : ¬ [' ', ' '] <:+: body) :
    ¬ [' ', ' '] <:+: (Piece.quoted q body).text := by
  intro h
  rcases List.infix_cons_iff.1 h with head | ⟨u, v, split⟩
  · exact quote_ne_space q (List.cons_prefix_cons.1 head).1.symm
  rcases List.eq_nil_or_concat v with rfl | ⟨v, e, rfl⟩
  · have last := congrArg List.getLast? split
    rw [List.append_nil, List.getLast?_append, List.getLast?_append] at last
    exact quote_ne_space q (Option.some.inj last).symm
  · rw [List.concat_eq_append, ← List.append_assoc] at split
    exact single ⟨u, v, (List.append_inj' split rfl).1⟩

variable {ps : List Piece}

theorem text_squeezed (single : ∀ q body, .quoted q body ∈ ps → ¬ [' ', ' '] <:+: body) :
    text (squeezed ps) = squeeze (text ps) := by
  induction ps with
  | nil => rfl
  | cons p ps ih =>
    have rest := ih fun q body mem => single q body (List.mem_cons_of_mem p mem)
    match p with
    | .code c =>
      show text (if Piece.code c = .code ' ' ∧ ps.head? = some (.code ' ') then squeezed ps
        else .code c :: squeezed ps) =
          if c = ' ' ∧ (text ps).head? = some ' ' then squeeze (text ps) else c :: squeeze (text ps)
      by_cases double : c = ' ' ∧ (text ps).head? = some ' '
      · rw [if_pos double, if_pos ⟨congrArg _ double.1, (head_text ps).1 double.2⟩]
        exact rest
      · rw [if_neg double, if_neg fun h => double ⟨Piece.code.inj h.1, (head_text ps).2 h.2⟩]
        exact congrArg (c :: ·) rest
    | .splice =>
      show text (if Piece.splice = .code ' ' ∧ ps.head? = some (.code ' ') then squeezed ps
        else .splice :: squeezed ps) = squeeze (splice ++ text ps)
      have other : ¬ (Piece.splice = .code ' ' ∧ ps.head? = some (.code ' ')) := fun h => by
        cases h.1
      have whole : squeeze (splice ++ text ps) = splice ++ squeeze (text ps) :=
        squeeze_append (text ps) (by decide) (by decide)
      rw [if_neg other, whole, ← rest]
      rfl
    | .quoted q body =>
      have last : (Piece.quoted q body).text.getLast? ≠ some ' ' := by
        show (q.char :: (body ++ [q.char])).getLast? ≠ some ' '
        rw [List.getLast?_cons, List.getLast?_append]
        intro same
        exact quote_ne_space q (Option.some.inj same)
      have whole := squeeze_append (text ps) (single_quoted (single q body List.mem_cons_self)) last
      refine Eq.trans ?_ whole.symm
      show (Piece.quoted q body).text ++ text (squeezed ps) = _
      rw [rest]

theorem text_kept (unspliced : .splice ∉ ps)
    (oneLine : ∀ q body, .quoted q body ∈ ps → '\r' ∉ body ∧ '\n' ∉ body) :
    text (unbroken ps) = (text ps).filter kept := by
  induction ps with
  | nil => rfl
  | cons p ps ih =>
    have rest := ih (mt (List.mem_cons_of_mem p) unspliced)
      fun q body mem => oneLine q body (List.mem_cons_of_mem p mem)
    match p with
    | .code c =>
      show _ = (c :: text ps).filter kept
      have same : kept c = !(Piece.code c).breaks := by
        simp [kept, Piece.breaks]
      cases goes : (Piece.code c).breaks with
      | true =>
        rw [goes] at same
        rw [unbroken_cons_of_breaks ps goes, List.filter_cons_of_neg (by rw [same]; decide), rest]
      | false =>
        rw [goes] at same
        rw [unbroken_cons ps goes, List.filter_cons_of_pos same, ← rest]
        rfl
    | .splice => exact absurd List.mem_cons_self unspliced
    | .quoted q body =>
      obtain ⟨noCr, noLf⟩ := oneLine q body List.mem_cons_self
      have all : (Piece.quoted q body).text.filter kept = (Piece.quoted q body).text := by
        refine List.filter_eq_self.2 fun c mem => ?_
        have ne : c ≠ '\r' ∧ c ≠ '\n' := by
          rcases List.mem_cons.1 mem with rfl | mem
          · cases q <;> decide
          rcases List.mem_append.1 mem with mem | mem
          · exact ⟨fun h => noCr (h ▸ mem), fun h => noLf (h ▸ mem)⟩
          · rw [List.mem_singleton.1 mem]
            cases q <;> decide
        simp [kept, ne]
      show (Piece.quoted q body).text ++ text (unbroken ps) =
        ((Piece.quoted q body).text ++ text ps).filter kept
      rw [List.filter_append, all, rest]

theorem joined_squeezed (p : Piece) (ps : List Piece) :
    joined p (squeezed ps) = joined p ps := by
  induction ps with
  | nil => rfl
  | cons q ps ih =>
    show joined p (if q = .code ' ' ∧ ps.head? = some (.code ' ') then squeezed ps
      else q :: squeezed ps) = _
    split_ifs with double
    · rw [ih]
      obtain ⟨rfl, next⟩ := double
      cases ps with
      | nil => cases next
      | cons q ps =>
        have same := Option.some.inj next
        subst same
        rfl
    · cases q with
      | splice => exact ih
      | code c => rfl
      | quoted q body => rfl

theorem shape_squeezed (ps : List Piece) : shape (squeezed ps) = shape ps := by
  induction ps with
  | nil => rfl
  | cons p ps ih =>
    show shape (if p = .code ' ' ∧ ps.head? = some (.code ' ') then squeezed ps
      else p :: squeezed ps) = if p.blank then shape ps else (p, joined p ps) :: shape ps
    split_ifs with double blank blank
    · exact ih
    · exact absurd (by rw [double.1]; rfl) blank
    · exact (if_pos blank).trans ih
    · refine (if_neg blank).trans ?_
      rw [joined_squeezed, ih]

theorem blank_of_breaks (h : p.breaks = true) : p.blank = true := by
  rcases Bool.or_eq_true_iff.1 h with h | h
  · rw [of_decide_eq_true h]
    decide
  · rw [of_decide_eq_true h]
    decide

theorem joined_eq_false (unspliced : .splice ∉ ps)
    (apart : ∀ q ∈ ps.head?, q.blank = false → pastes p q = false) : joined p ps = false := by
  match ps with
  | [] => rfl
  | .splice :: ps => exact absurd List.mem_cons_self unspliced
  | .code c :: ps =>
    show (!(Piece.code c).blank && pastes p (.code c)) = false
    cases blank : (Piece.code c).blank with
    | true => rfl
    | false => exact apart _ rfl blank
  | .quoted q body :: ps => exact apart _ rfl rfl

theorem head_kept (ps : List Piece) :
    (unbroken ps).head? = (ps.dropWhile Piece.breaks).head? := by
  induction ps with
  | nil => rfl
  | cons p ps ih =>
    cases goes : p.breaks with
    | true =>
      rw [unbroken_cons_of_breaks ps goes, List.dropWhile_cons_of_pos goes, ih]
    | false =>
      rw [unbroken_cons ps goes, List.dropWhile_cons_of_neg (by rw [goes]; decide)]
      rfl

/-- Beside a line break nothing is joined, with it or without it. -/
theorem joined_kept (unspliced : .splice ∉ ps)
    (visible : p.blank = false) (apart : Separated (p :: ps)) :
    joined p (unbroken ps) = joined p ps := by
  cases ps with
  | nil => rfl
  | cons q ps =>
    cases goes : q.breaks with
    | true =>
      have apart := apart.1 visible ⟨q, rfl, goes⟩
      have here : joined p (q :: ps) = false := by
        refine joined_eq_false unspliced fun r mem blank => ?_
        obtain rfl : q = r := Option.some.inj mem
        rw [blank_of_breaks goes] at blank
        cases blank
      rw [here]
      refine joined_eq_false (fun mem => unspliced (List.mem_of_mem_filter mem)) ?_
      rw [head_kept]
      exact apart
    | false =>
      rw [unbroken_cons ps goes]
      cases q with
      | splice => exact absurd List.mem_cons_self unspliced
      | code c => rfl
      | quoted q body => rfl

theorem shape_kept (unspliced : .splice ∉ ps) (apart : Separated ps) :
    shape (unbroken ps) = shape ps := by
  induction ps with
  | nil => rfl
  | cons p ps ih =>
    have unspliced' := mt (List.mem_cons_of_mem p) unspliced
    have rest := ih unspliced' apart.2
    cases blank : p.blank with
    | true =>
      have skipped : shape (p :: ps) = shape ps := if_pos blank
      rw [skipped, ← rest]
      cases goes : p.breaks with
      | true => rw [unbroken_cons_of_breaks ps goes]
      | false =>
        rw [unbroken_cons ps goes]
        exact if_pos blank
    | false =>
      have goes : p.breaks = false := by
        by_contra goes
        rw [blank_of_breaks (Bool.eq_true_of_not_eq_false goes)] at blank
        cases blank
      have visible : ¬ p.blank = true := by
        rw [blank]
        decide
      rw [unbroken_cons ps goes]
      show (if p.blank = true then _ else _) = if p.blank = true then _ else _
      rw [if_neg visible, if_neg visible, joined_kept unspliced' blank apart, rest]

theorem carries_args {args : List Piece} (quiet : Quiet args) :
    Carries args (replace regAddSpaces (fun _ => [' '])
      (replace regNewLine (fun _ => []) (text args))) := by
  refine ⟨squeezed (unbroken args), ?_, ?_⟩
  · rw [replace_regAddSpaces, replace_regNewLine quiet.noSlash quiet.noTab,
      ← text_kept quiet.unspliced fun q body mem => ⟨(quiet.literals q body mem).1,
        (quiet.literals q body mem).2.1⟩]
    refine text_squeezed fun q body mem => ?_
    exact (quiet.literals q body (List.mem_of_mem_filter mem)).2.2
  · rw [shape_squeezed, shape_kept quiet.unspliced quiet.separated]

end Passes

/-! ### Calls -/

set_option maxRecDepth 3000 in
theorem replaceString_base (x : Text) :
    replaceString REPLACE_BASE ['$', '1'] x = logBlock x := by
  unfold replaceString logBlock REPLACE_BASE
  iterate 5 rw [String.toList_ofList]
  rfl

theorem dpCallback_eq (groups : ℕ → Text) : dpCallback groups = logBlock
    (replace regAddSpaces (fun _ => [' ']) (replace regNewLine (fun _ => []) (groups 1))) := by
  unfold dpCallback
  rw [replaceString_base]

variable {ps rest : List Piece}

theorem closing_eq {depth : ℕ} {args : List Piece}
    (h : closing depth ps = some (args, rest)) : ps = args ++ .code ')' :: rest := by
  induction depth, ps using closing.induct generalizing args with
  | case1 depth => cases h
  | case2 depth ps ih =>
    obtain ⟨⟨args, rest⟩, found, same⟩ := Option.map_eq_some_iff.1 h
    obtain ⟨rfl, rfl⟩ := Prod.mk.inj same
    rw [ih found]
    rfl
  | case3 ps =>
    obtain ⟨rfl, rfl⟩ := Prod.mk.inj (Option.some.inj h)
    rfl
  | case4 depth ps ih =>
    obtain ⟨⟨args, rest⟩, found, same⟩ := Option.map_eq_some_iff.1 h
    obtain ⟨rfl, rfl⟩ := Prod.mk.inj same
    rw [ih found]
    rfl
  | case5 depth p ps opens closes closes' ih =>
    rw [closing.eq_5 depth p ps opens closes closes'] at h
    obtain ⟨⟨args, rest⟩, found, same⟩ := Option.map_eq_some_iff.1 h
    obtain ⟨rfl, rfl⟩ := Prod.mk.inj same
    rw [ih found]
    rfl 
theorem text_append (ps qs : List Piece) : text (ps ++ qs) = text ps ++ text qs :=
  List.flatMap_append 
theorem text_code (cs : Text) : text (cs.map .code) = cs := by
  induction cs with
  | nil => rfl
  | cons c cs ih => exact congrArg (c :: ·) ih 
theorem split_blanks {p : Piece} (h : ps.dropWhile Piece.blank = p :: rest) :
    ps = ps.takeWhile Piece.blank ++ p :: rest := by
  rw [← h, List.takeWhile_append_dropWhile] 
theorem call?_eq {item : Item} (h : call? ps = some (item, rest)) :
    ∃ space args space', item = .call space args space' ∧ text ps = item.text ++ text rest ∧
      (∀ p ∈ space, p.blank = true) ∧ (∀ p ∈ space', p.blank = true) ∧ rest.length < ps.length := by
  unfold call? at h
  split_ifs at h with named
  obtain ⟨ps, rfl⟩ := named
  rw [show name.length = (name.map Piece.code).length from rfl, List.drop_left] at h
  split at h
  · rename_i inner opens
    split at h
    · rename_i args after closes
      split at h
      · rename_i rest' ends
        obtain ⟨rfl, rfl⟩ := Prod.mk.inj (Option.some.inj h)
        have opens := split_blanks opens
        have ends := split_blanks ends
        refine ⟨_, _, _, rfl, ?_, fun p mem => List.mem_takeWhile_imp mem,
          fun p mem => List.mem_takeWhile_imp mem, ?_⟩
        · have whole : text ps = text (ps.takeWhile Piece.blank) ++ '(' :: (text args ++ ')' ::
              (text (after.takeWhile Piece.blank) ++ ';' :: text rest')) := by
            nth_rewrite 1 [opens]
            rw [text_append, closing_eq closes]
            show _ ++ '(' :: text (args ++ _) = _
            rw [text_append]
            show _ ++ '(' :: (text args ++ ')' :: text after) = _
            nth_rewrite 1 [ends]
            rw [text_append]
            rfl
          rw [text_append, text_code, whole]
          simp [Item.text]
        · have first := congrArg List.length opens
          have second := congrArg List.length (closing_eq closes)
          have third := congrArg List.length ends
          simp only [List.length_append, List.length_cons] at first second third ⊢
          omega
      · cases h
    · cases h
  · cases h

theorem isspace_text {space : List Piece} (blank : ∀ p ∈ space, p.blank = true)
    (unspliced : .splice ∉ space) : ∀ c ∈ text space, isspace c = true := by
  intro c mem
  obtain ⟨p, inside, mem⟩ := List.mem_flatMap.1 mem
  match p with
  | .code d =>
    rw [List.mem_singleton.1 mem]
    exact blank _ inside
  | .splice => exact absurd inside unspliced
  | .quoted q body => cases blank _ inside

theorem text_ne_nil (some : ps ≠ []) : text ps ≠ [] := by
  match ps with
  | [] => exact absurd rfl some
  | .code c :: ps => exact List.cons_ne_nil _ _
  | .splice :: ps => exact List.cons_ne_nil _ _
  | .quoted q body :: ps => exact List.cons_ne_nil _ _

theorem replace_call {space args space' : List Piece} (t : Text) (found : Found space args space')
    (blank : ∀ p ∈ space, p.blank = true) (blank' : ∀ p ∈ space', p.blank = true) :
    ∃ a, Carries args a ∧ replace regN dpCallback ((Item.call space args space').text ++ t) =
      logBlock a ++ replace regN dpCallback t := by
  obtain ⟨g, taken, group⟩ := match_regN (t := t) (isspace_text blank found.spelled.1)
    (text_ne_nil found.some) (isspace_text blank' found.spelled.2) found.inside
  have whole : (Item.call space args space').text ++ t = name ++ (text space ++ '(' ::
      (text args ++ ')' :: (text space' ++ ';' :: t))) := by
    simp [Item.text]
  rw [← whole] at taken
  refine ⟨_, carries_args found.quiet, ?_⟩
  rw [replace_taken taken (List.cons_ne_nil _ _), dpCallback_eq, group]

/-- What the second pass makes of pieces, read for calls from somewhere on. -/
theorem renders_itemsFrom {fuel : ℕ} {inName : Bool} (enough : ps.length ≤ fuel)
    (plain : Plain (itemsFrom fuel inName ps)) :
    text ps = (itemsFrom fuel inName ps).flatMap Item.text ∧
      Renders (itemsFrom fuel inName ps) (replace regN dpCallback (text ps)) := by
  induction fuel generalizing inName ps with
  | zero =>
    rw [List.length_eq_zero_iff.1 (Nat.le_zero.1 enough)]
    exact ⟨rfl, rfl⟩
  | succ fuel ih =>
    cases ps with
    | nil => exact ⟨rfl, rfl⟩
    | cons p ps =>
      unfold itemsFrom at plain ⊢
      split at plain
      · rename_i item rest h
        obtain ⟨-, h⟩ := (Option.ite_none_left_eq_some).1 h
        obtain ⟨space, args, space', rfl, whole, blank, blank', less⟩ := call?_eq h
        obtain ⟨found, plain⟩ := plain
        obtain ⟨texts, renders⟩ := ih (by
          rw [List.length_cons] at less enough
          omega) plain
        obtain ⟨a, carries, block⟩ := replace_call (text rest) found blank blank'
        rw [whole]
        exact ⟨congrArg _ texts, a, _, carries, block, renders⟩
      · obtain ⟨other, plain⟩ := plain
        obtain ⟨texts, renders⟩ := ih (Nat.le_of_succ_le_succ enough) plain
        have stays : replace regN dpCallback (p.text ++ text ps) =
            p.text ++ replace regN dpCallback (text ps) := by
          refine replace_skips fun y z split ne => match_regN_none ?_
          rw [texts]
          exact other y z split ne
        exact ⟨congrArg (p.text ++ ·) texts, _, stays, renders⟩

/-- A plain source is rewritten as it should be. -/
theorem preserved_of_plain (BASE_CODE : Text) (src : Source) (plain : src.Plain) :
    src.Preserved BASE_CODE := by
  refine ⟨_, ?_, (renders_itemsFrom le_rfl plain.plain).2⟩
  unfold parseLog
  rw [replace_regComments src.lexed plain.unprefixed]

def codeParts (t : Text) : List Part := t.map fun c => .piece (.code c)

/-- `if (!md) pcn_log (c,`, and on the next line `"a; /* b */ (");` and a comment. -/
def someSource : Source where
  parts := codeParts "if (!md)\n  pcn_log (c,\n".toList ++
    .piece (.quoted .double "a; /* b */ (".toList) :: codeParts "); ".toList ++
    [.comment (.line " once".toList)]
  lexed := by
    simp [codeParts, Lexed, Plainly, sourceText, Part.text, Piece.text, Comment.text, QuotedBody,
      LineBody, Quote.char]

theorem items_someSource : items (stripped someSource.parts) =
    "if (!md)\n  ".toList.map (fun c => .piece (.code c)) ++
      [.call [.code ' '] [.code 'c', .code ',', .code '\n',
        .quoted .double "a; /* b */ (".toList] [], .piece (.code ' ')] := by
  decide +kernel

theorem plain_code {cs : Text} {is : List Item} (plain : Plain is)
    (other : ∀ u ∈ cs.tails, u ≠ [] → ¬ name <+: u ++ is.flatMap Item.text) :
    Plain (cs.map (fun c => .piece (.code c)) ++ is) := by
  induction cs with
  | nil => exact plain
  | cons c cs ih =>
    have rest : (cs.map (fun c => Item.piece (.code c)) ++ is).flatMap Item.text =
        cs ++ is.flatMap Item.text := by
      rw [List.flatMap_append, List.flatMap_map]
      exact congrArg (· ++ _) (List.flatMap_singleton' cs)
    refine ⟨fun y z split ne call => ?_, ih fun u mem => other u (List.mem_cons_of_mem _ mem)⟩
    obtain ⟨w, x, w', t', -, -, -, call⟩ := call
    have whole : z = [c] := by
      cases y with
      | nil => exact split.symm
      | cons d y => exact absurd (List.append_eq_nil_iff.1 (List.cons.inj split).2.symm).2 ne
    refine other (c :: cs) List.mem_cons_self (List.cons_ne_nil c cs) ⟨_, call.symm.trans ?_⟩
    rw [whole]
    exact congrArg (c :: ·) rest

theorem plain_someSource : someSource.Plain where
  unprefixed := by
    simp [someSource, codeParts, Unprefixed]
  plain := by
    have found : Found [.code ' '] [.code 'c', .code ',', .code '\n',
        .quoted .double "a; /* b */ (".toList] [] := by
      refine ⟨by decide, by decide, fun y w z _ split => ?_, ?_⟩
      · have closed : ')' ∉ text [.code 'c', .code ',', .code '\n',
            .quoted .double "a; /* b */ (".toList] := by decide
        exact closed (by rw [split]; simp)
      · refine ⟨by decide, fun q body mem => ?_, by decide, by decide, ?_⟩
        · obtain ⟨-, rfl⟩ : q = .double ∧ body = "a; /* b */ (".toList := by simpa using mem
          decide
        · have comma : wordChar ',' = false := rfl
          simp [Separated, Piece.blank, Piece.breaks, isspace, pastes, comma]
    rw [items_someSource]
    refine plain_code ⟨found, ?_, trivial⟩ (by decide)
    exact (@plain_code [' '] [] trivial (by decide)).1

/-- A call on two lines, with a comment marker and a semicolon in its message, comes through. -/
theorem preserved_someSource : someSource.Plain ∧ someSource.Preserved [] :=
  ⟨plain_someSource, preserved_of_plain [] someSource plain_someSource⟩

/-- `pcn_log(c,"a);b");` -/
def splitSource : Source where
  parts := codeParts "pcn_log(c,".toList ++
    .piece (.quoted .double "a);b".toList) :: codeParts ");".toList
  lexed := by
    simp [codeParts, Lexed, Plainly, sourceText, Part.text, Piece.text, QuotedBody, Quote.char]

/-- The parenthesis and the semicolon in the message end the call. -/
theorem not_preserved_splitSource : ¬ splitSource.Preserved [] := by
  rintro ⟨out, parsed, renders⟩
  have items_eq : items (stripped splitSource.parts) = [.call []
      [.code 'c', .code ',', .quoted .double "a);b".toList] []] := by decide +kernel
  have last : (parseLog [] (sourceText splitSource.parts)).getLast? = some ';' := by
    unfold parseLog
    rw [funext dpCallback_eq]
    decide +kernel
  rw [items_eq] at renders
  obtain ⟨a, out', -, rfl, rfl⟩ := renders
  rw [parsed] at last
  have ends {x y : Text} (h : y.getLast? = some '\n') : (x ++ y).getLast? = some '\n' := by
    rw [List.getLast?_append, h]
    rfl
  have newline : (logBlock a).getLast? = some '\n' :=
    ends (ends (ends (ends (ends (ends (by rw [String.toList_ofList]; rfl))))))
  rw [List.nil_append, List.append_nil, newline] at last
  cases last

end Polycube.Polycubed.DatapathLog
