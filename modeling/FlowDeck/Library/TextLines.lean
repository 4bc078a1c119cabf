import Mathlib.Data.List.DropRight
import Mathlib.Data.List.Infix

/-! A text as its lines: joining them with a separator, and what a search through the joined text
finds in terms of the lines. -/

namespace TextLines

variable {α : Type*} {nl : α}

/-- Lines with a separator between them. -/
def join (nl : α) : List (List α) → List α
  | [] => []
  | [l] => l
  | l :: m :: ls => l ++ nl :: join nl (m :: ls)

@[simp] theorem join_singleton (l : List α) : join nl [l] = l := rfl

@[simp] theorem join_cons_cons (l m : List α) (ls : List (List α)) :
    join nl (l :: m :: ls) = l ++ nl :: join nl (m :: ls) := rfl

theorem join_cons (l : List α) {ls : List (List α)} (h : ls ≠ []) :
    join nl (l :: ls) = l ++ nl :: join nl ls := by
  cases ls with
  | nil => exact absurd rfl h
  | cons m ls => rfl

theorem join_append {ls ms : List (List α)} (hl : ls ≠ []) (hm : ms ≠ []) :
    join nl (ls ++ ms) = join nl ls ++ nl :: join nl ms := by
  induction ls with
  | nil => exact absurd rfl hl
  | cons l ls ih =>
    cases ls with
    | nil => exact join_cons l hm
    | cons k ls =>
      have hrest : join nl (k :: ls ++ ms) = join nl (k :: ls) ++ nl :: join nl ms :=
        ih (List.cons_ne_nil _ _)
      rw [List.cons_append, join_cons l (by simp), hrest, join_cons_cons, List.append_assoc,
        List.cons_append]

/-- What follows a line. -/
def following (nl : α) : List (List α) → List α
  | [] => []
  | l :: ls => nl :: join nl (l :: ls)

theorem join_cons_following (l : List α) (ls : List (List α)) :
    join nl (l :: ls) = l ++ following nl ls := by
  cases ls with
  | nil => simp [following]
  | cons m ls => rfl

theorem following_cons (l : List α) (ls : List (List α)) :
    following nl (l :: ls) = nl :: (l ++ following nl ls) := by
  rw [following, join_cons_following]

section Parts

variable {β : Type*} {text : β → List α} {close : α} {ended : List α → Prop} {as bs : List β}
  {us vs : List α}

/-- Parts that can be told apart in front of a separator and of a closing mark make lists that can. -/
theorem following_append_inj (hne : close ≠ nl) (hclose : ∀ us, ended (close :: us))
    (hsep : ∀ us, ended (nl :: us))
    (hinj : ∀ a ∈ as, ∀ b ∈ bs, ∀ us vs, ended us → ended vs → text a ++ us = text b ++ vs →
      a = b ∧ us = vs)
    (h : following nl (as.map text) ++ close :: us = following nl (bs.map text) ++ close :: vs) :
    as = bs ∧ us = vs := by
  have hended : ∀ (ls : List (List α)) us, ended (following nl ls ++ close :: us) := by
    intro ls us
    cases ls with
    | nil => exact hclose us
    | cons l ls => exact hsep _
  induction as generalizing bs with
  | nil =>
    cases bs with
    | nil => exact ⟨rfl, (List.cons.inj h).2⟩
    | cons b bs => exact absurd (List.cons.inj h).1 hne
  | cons a as ih =>
    cases bs with
    | nil => exact absurd (List.cons.inj h).1.symm hne
    | cons b bs =>
      rw [List.map_cons, List.map_cons, following_cons, following_cons, List.cons_append,
        List.cons_append, List.append_assoc, List.append_assoc] at h
      obtain ⟨hsame, hrest⟩ := hinj a List.mem_cons_self b List.mem_cons_self _ _
        (hended _ us) (hended _ vs) (List.cons.inj h).2
      obtain ⟨hmore, hus⟩ := ih (fun a ha b hb => hinj a (List.mem_cons_of_mem _ ha) b
        (List.mem_cons_of_mem _ hb)) hrest
      exact ⟨by rw [hsame, hmore], hus⟩

theorem join_append_inj (hne : close ≠ nl) (hclose : ∀ us, ended (close :: us))
    (hsep : ∀ us, ended (nl :: us)) (has : ∀ a ∈ as, ∀ us, ¬ ended (text a ++ us))
    (hbs : ∀ b ∈ bs, ∀ us, ¬ ended (text b ++ us))
    (hinj : ∀ a ∈ as, ∀ b ∈ bs, ∀ us vs, ended us → ended vs → text a ++ us = text b ++ vs →
      a = b ∧ us = vs)
    (h : join nl (as.map text) ++ close :: us = join nl (bs.map text) ++ close :: vs) :
    as = bs ∧ us = vs := by
  cases as with
  | nil =>
    cases bs with
    | nil => exact ⟨rfl, (List.cons.inj h).2⟩
    | cons b bs =>
      have hended := hclose us
      have hstart : close :: us = join nl ((b :: bs).map text) ++ close :: vs := h
      rw [hstart, List.map_cons, join_cons_following, List.append_assoc] at hended
      exact absurd hended (hbs b List.mem_cons_self _)
  | cons a as =>
    cases bs with
    | nil =>
      have hended := hclose vs
      have hstart : join nl ((a :: as).map text) ++ close :: us = close :: vs := h
      rw [← hstart, List.map_cons, join_cons_following, List.append_assoc] at hended
      exact absurd hended (has a List.mem_cons_self _)
    | cons b bs =>
      have hmore : following nl ((a :: as).map text) ++ close :: us =
          following nl ((b :: bs).map text) ++ close :: vs := congrArg (nl :: ·) h
      exact following_append_inj hne hclose hsep hinj hmore

end Parts

theorem join_eq_intercalate (ls : List (List α)) : join nl ls = [nl].intercalate ls := by
  induction ls with
  | nil => rfl
  | cons l ls ih =>
    cases ls with
    | nil => simp
    | cons m ls => rw [join_cons_cons, ih, List.intercalate_cons_cons, List.append_assoc]; rfl

/-- Splitting at the separator gives the lines back. -/
theorem splitOn_join [BEq α] [LawfulBEq α] {ls : List (List α)} (hne : ls ≠ [])
    (h : ∀ l ∈ ls, nl ∉ l) : (join nl ls).splitOn nl = ls := by
  rw [join_eq_intercalate]
  exact List.splitOn_intercalate nl h hne

theorem mem_of_mem_join {c : α} {ls : List (List α)} (h : c ∈ join nl ls) :
    c = nl ∨ ∃ l ∈ ls, c ∈ l := by
  induction ls with
  | nil => exact absurd h List.not_mem_nil
  | cons l ls ih =>
    cases ls with
    | nil => exact Or.inr ⟨l, List.mem_cons_self, h⟩
    | cons m ls =>
      rw [join_cons_cons, List.mem_append, List.mem_cons] at h
      rcases h with h | h | h
      · exact Or.inr ⟨l, List.mem_cons_self, h⟩
      · exact Or.inl h
      · obtain hnl | ⟨k, hk, hc⟩ := ih h
        · exact Or.inl hnl
        · exact Or.inr ⟨k, List.mem_cons_of_mem _ hk, hc⟩

/-! ### Prefixes -/

/-- A text without the separator begins the joined text when it begins the first line. -/
theorem prefix_line {p l rest : List α} (hp : nl ∉ p) : p <+: l ++ nl :: rest ↔ p <+: l := by
  constructor
  · intro h
    rcases List.prefix_or_prefix_of_prefix h (List.prefix_append l (nl :: rest)) with hpl | hlp
    · exact hpl
    · obtain ⟨q, rfl⟩ := hlp
      rw [List.prefix_append_right_inj] at h
      cases q with
      | nil => simp
      | cons x q =>
        have hx : x = nl := (List.cons_prefix_cons.mp h).1
        simp [hx] at hp
  · intro h
    exact h.trans (List.prefix_append _ _)

theorem prefix_join {p l : List α} (ls : List (List α)) (hp : nl ∉ p) :
    p <+: join nl (l :: ls) ↔ p <+: l := by
  cases ls with
  | nil => rfl
  | cons m ls => exact prefix_line hp

/-- A line and its separator begin the joined text when the line is its first and not its last. -/
theorem line_prefix_join {h l : List α} (ls : List (List α)) (hh : nl ∉ h) (hl : nl ∉ l) :
    h ++ [nl] <+: join nl (l :: ls) ↔ l = h ∧ ls ≠ [] := by
  constructor
  · intro hpre
    obtain ⟨q, rfl⟩ : h <+: l := (prefix_join ls hh).mp ((List.prefix_append h [nl]).trans hpre)
    cases ls with
    | nil =>
      rw [join_singleton, List.prefix_append_right_inj] at hpre
      cases q with
      | nil => simp at hpre
      | cons x q =>
        have hx : nl = x := (List.cons_prefix_cons.mp hpre).1
        simp [hx] at hl
    | cons m ls =>
      rw [join_cons_cons, List.append_assoc, List.prefix_append_right_inj] at hpre
      cases q with
      | nil => simp
      | cons x q =>
        have hx : nl = x := (List.cons_prefix_cons.mp hpre).1
        simp [hx] at hl
  · intro hline
    obtain ⟨rfl, hne⟩ := hline
    rw [join_cons l hne]
    exact ⟨join nl ls, by simp⟩

/-! ### The first place a text stands at -/

section Search

variable [DecidableEq α]

/-- What stands before the first place of a text, and what follows it. -/
def splitAtFirst (needle : List α) : List α → Option (List α × List α)
  | [] => if needle = [] then some ([], []) else none
  | c :: cs =>
    if needle <+: c :: cs then some ([], (c :: cs).drop needle.length)
    else (splitAtFirst needle cs).map fun p => (c :: p.1, p.2)

/-- A text that begins with the separator does not begin within a line. -/
theorem splitAtFirst_skip {n l : List α} (rest : List α) (hl : nl ∉ l) :
    splitAtFirst (nl :: n) (l ++ rest) =
      (splitAtFirst (nl :: n) rest).map fun p => (l ++ p.1, p.2) := by
  induction l with
  | nil => simp
  | cons c l ih =>
    have hc : nl ≠ c := fun heq => hl (heq ▸ List.mem_cons_self)
    have hrest : nl ∉ l := fun hmem => hl (List.mem_cons_of_mem _ hmem)
    rw [List.cons_append, splitAtFirst, if_neg (by simp [hc]), ih hrest, Option.map_map]
    rfl

theorem splitAtFirst_of_notMem {n l : List α} (hl : nl ∉ l) : splitAtFirst (nl :: n) l = none := by
  have h := splitAtFirst_skip (n := n) [] hl
  simpa [splitAtFirst] using h

/-- A text that does not hold the separator does not begin behind one that does not hold it. -/
theorem splitAtFirst_within {needle l : List α} (rest : List α) (hne : needle ≠ [])
    (hnl : nl ∉ needle) (h : ¬ needle <:+: l) :
    splitAtFirst needle (l ++ nl :: rest) =
      (splitAtFirst needle rest).map fun p => (l ++ nl :: p.1, p.2) := by
  induction l with
  | nil =>
    have hnot : ¬ needle <+: nl :: rest := by
      intro hpre
      obtain ⟨c, more, rfl⟩ := List.exists_cons_of_ne_nil hne
      exact hnl ((List.cons_prefix_cons.mp hpre).1 ▸ List.mem_cons_self)
    rw [List.nil_append, splitAtFirst, if_neg hnot]
    rfl
  | cons c l ih =>
    have hnot : ¬ needle <+: c :: (l ++ nl :: rest) := by
      intro hpre
      exact h ((prefix_line hnl (l := c :: l)).mp hpre).isInfix
    have hrest : ¬ needle <:+: l := fun hin => h (hin.trans (List.suffix_cons c l).isInfix)
    rw [List.cons_append, splitAtFirst, if_neg hnot, ih hrest, Option.map_map]
    rfl

/-- The lines before the first line `h` that is neither the first nor the last, and those after. -/
def splitAtLine (h : List α) : List (List α) → Option (List (List α) × List (List α))
  | l :: m :: ls =>
    if m = h ∧ ls ≠ [] then some ([l], ls)
    else (splitAtLine h (m :: ls)).map fun p => (l :: p.1, p.2)
  | _ => none

theorem splitAtLine_parts {h : List α} {ls before after : List (List α)}
    (hsplit : splitAtLine h ls = some (before, after)) :
    ls = before ++ h :: after ∧ before ≠ [] ∧ after ≠ [] := by
  fun_induction splitAtLine h ls generalizing before after with
  | case1 l m ls hcond =>
    simp only [Option.some.injEq, Prod.mk.injEq] at hsplit
    obtain ⟨rfl, rfl⟩ := hsplit
    simp [hcond.1, hcond.2]
  | case2 l m ls hcond ih =>
    obtain ⟨p, hp, heq⟩ := Option.map_eq_some_iff.mp hsplit
    obtain ⟨hls, -, hafter⟩ := ih hp
    cases heq
    exact ⟨by rw [hls, List.cons_append], List.cons_ne_nil _ _, hafter⟩
  | case3 => cases hsplit

theorem splitAtLine_first {h l : List α} {ls rest : List (List α)} (hls : h ∉ ls)
    (hrest : rest ≠ []) : splitAtLine h (l :: (ls ++ h :: rest)) = some (l :: ls, rest) := by
  induction ls generalizing l with
  | nil => simp [splitAtLine, hrest]
  | cons m ls ih =>
    have hm : m ≠ h := fun heq => hls (heq ▸ List.mem_cons_self)
    have hmore : h ∉ ls := fun hmem => hls (List.mem_cons_of_mem _ hmem)
    rw [List.cons_append, splitAtLine, if_neg (by simp [hm]), ih hmore]
    rfl

/-- A search for a whole line in the joined text is a search among the lines. -/
theorem splitAtFirst_join {h : List α} {ls : List (List α)} (hh : nl ∉ h)
    (hls : ∀ l ∈ ls, nl ∉ l) :
    splitAtFirst (nl :: (h ++ [nl])) (join nl ls) =
      (splitAtLine h ls).map fun p => (join nl p.1, join nl p.2) := by
  fun_induction splitAtLine h ls with
  | case1 l m ls hcond =>
    obtain ⟨rfl, hne⟩ := hcond
    have hl : nl ∉ l := hls l (by simp)
    have hhere : nl :: (m ++ [nl]) <+: nl :: join nl (m :: ls) := by
      rw [List.cons_prefix_cons]
      exact ⟨rfl, (line_prefix_join ls hh hh).mpr ⟨rfl, hne⟩⟩
    rw [join_cons_cons, splitAtFirst_skip _ hl, splitAtFirst, if_pos hhere, join_cons m hne]
    simp
  | case2 l m ls hcond ih =>
    have hl : nl ∉ l := hls l (by simp)
    have hm : nl ∉ m := hls m (by simp)
    have hnot : ¬ nl :: (h ++ [nl]) <+: nl :: join nl (m :: ls) := by
      rw [List.cons_prefix_cons, line_prefix_join ls hh hm]
      simpa using hcond
    have hrest : splitAtFirst (nl :: (h ++ [nl])) (join nl (m :: ls)) =
        (splitAtLine h (m :: ls)).map fun p => (join nl p.1, join nl p.2) :=
      ih fun k hk => hls k (List.mem_cons_of_mem _ hk)
    rw [join_cons_cons, splitAtFirst_skip _ hl, splitAtFirst, if_neg hnot, hrest]
    cases hsplit : splitAtLine h (m :: ls) with
    | none => rfl
    | some p =>
      have hbefore : p.1 ≠ [] := (splitAtLine_parts hsplit).2.1
      simp [join_cons l hbefore]
  | case3 ls hshort =>
    cases ls with
    | nil => rfl
    | cons l ls =>
      cases ls with
      | nil => exact splitAtFirst_of_notMem (hls l (by simp))
      | cons m ls => exact absurd rfl (hshort l m ls)

end Search

/-! ### The end of the text -/

theorem rdropWhile_append (blank : α → Bool) (s t : List α) :
    (s ++ t).rdropWhile blank =
      if t.rdropWhile blank = [] then s.rdropWhile blank else s ++ t.rdropWhile blank := by
  simp only [List.rdropWhile, List.reverse_append, List.dropWhile_append, List.isEmpty_iff,
    List.reverse_eq_nil_iff]
  split
  · rfl
  · simp

/-- Dropping what is blank at the end leaves the lines up to one that does not end in a blank as
they are, and of those behind it only lines, as they were or without the blanks at their end. -/
theorem rdropWhile_join (blank : α → Bool) (hnl : blank nl = true) {x : List α} (hx : x ≠ [])
    (hend : x.rdropWhile blank = x) (before after : List (List α)) :
    ∃ kept, (join nl (before ++ x :: after)).rdropWhile blank = join nl (before ++ x :: kept) ∧
      ∀ l ∈ kept, ∃ m ∈ after, l = m ∨ l = m.rdropWhile blank := by
  induction after using List.reverseRecOn with
  | nil =>
    refine ⟨[], ?_, by simp⟩
    cases before with
    | nil => exact hend
    | cons b bs =>
      rw [join_append (List.cons_ne_nil _ _) (List.cons_ne_nil _ _), join_singleton,
        List.append_cons, rdropWhile_append, hend, if_neg hx]
  | append_singleton after l ih =>
    have hlast : ∀ m, join nl (before ++ x :: (after ++ [m])) =
        join nl (before ++ x :: after) ++ nl :: m := by
      intro m
      rw [← List.cons_append, ← List.append_assoc, join_append (by simp) (by simp), join_singleton]
    by_cases hblank : l.rdropWhile blank = []
    · obtain ⟨kept, hkept, hmem⟩ := ih
      refine ⟨kept, ?_, ?_⟩
      · have hnone : (nl :: l).rdropWhile blank = [] := by
          rw [List.rdropWhile_eq_nil_iff] at hblank ⊢
          simpa [hnl] using hblank
        rw [hlast, rdropWhile_append, if_pos hnone, hkept]
      · intro k hk
        obtain ⟨m, hm, hkm⟩ := hmem k hk
        exact ⟨m, List.mem_append_left _ hm, hkm⟩
    · refine ⟨after ++ [l.rdropWhile blank], ?_, ?_⟩
      · have hsome : (nl :: l).rdropWhile blank = nl :: l.rdropWhile blank := by
          rw [← List.singleton_append, rdropWhile_append, if_neg hblank, List.singleton_append]
        rw [hlast, hlast, rdropWhile_append, hsome, if_neg (List.cons_ne_nil _ _)]
      · intro k hk
        rcases List.mem_append.mp hk with hk | hk
        · exact ⟨k, List.mem_append_left _ hk, Or.inl rfl⟩
        · exact ⟨l, by simp, Or.inr (List.mem_singleton.mp hk)⟩

/-! ### The words of a text -/

section Words

variable {p : α → Bool} {ws : List (List α)} {s t : List α}

/-- The runs of characters that have a property. -/
def words (p : α → Bool) (s : List α) : List (List α) :=
  (s.splitOnP fun c => !p c).filter fun w => !w.isEmpty

/-- Words: none is empty, and each is made of such characters alone. -/
def AreWords (p : α → Bool) (ws : List (List α)) : Prop := ∀ w ∈ ws, w ≠ [] ∧ ∀ c ∈ w, p c = true

@[simp] theorem words_nil : words p ([] : List α) = [] := by
  simp [words, List.splitOnP_nil]

theorem words_append_cons {c : α} (hc : p c = false) (s t : List α) :
    words p (s ++ c :: t) = words p s ++ words p t := by
  unfold words
  rw [List.splitOnP_append_cons s t (by simp [hc]), List.filter_append]

theorem words_cons {c : α} (hc : p c = false) (s : List α) : words p (c :: s) = words p s := by
  have h := words_append_cons hc [] s
  simpa using h

theorem words_eq_singleton (hne : s ≠ []) (h : ∀ c ∈ s, p c = true) : words p s = [s] := by
  unfold words
  rw [List.splitOnP_eq_singleton fun c hc => by simp [h c hc]]
  simp [hne]

theorem words_eq_nil (h : ∀ c ∈ s, p c = false) : words p s = [] := by
  induction s with
  | nil => exact words_nil
  | cons c s ih =>
    rw [words_cons (h c List.mem_cons_self)]
    exact ih fun d hd => h d (List.mem_cons_of_mem _ hd)

/-- What stands around a text and is of no word adds none. -/
theorem words_between {before after : List α} (hbefore : ∀ c ∈ before, p c = false)
    (hafter : ∀ c ∈ after, p c = false) (s : List α) : words p (before ++ s ++ after) = words p s := by
  have hfront : ∀ t : List α, words p (before ++ t) = words p t := by
    intro t
    induction before with
    | nil => rfl
    | cons c before ih =>
      rw [List.cons_append, words_cons (hbefore c List.mem_cons_self)]
      exact ih fun d hd => hbefore d (List.mem_cons_of_mem _ hd)
  rw [List.append_assoc, hfront]
  cases after with
  | nil => rw [List.append_nil]
  | cons c after =>
    rw [words_append_cons (hafter c List.mem_cons_self),
      words_eq_nil fun d hd => hafter d (List.mem_cons_of_mem _ hd), List.append_nil]

theorem AreWords.tail {w : List α} (h : AreWords p (w :: ws)) : AreWords p ws := fun v hv =>
  h v (List.mem_cons_of_mem _ hv)

theorem words_join (hnl : p nl = false) (h : AreWords p ws) : words p (join nl ws) = ws := by
  induction ws with
  | nil => exact words_nil
  | cons w ws ih =>
    obtain ⟨hne, hall⟩ := h w List.mem_cons_self
    cases ws with
    | nil => exact words_eq_singleton hne hall
    | cons v ws =>
      rw [join_cons_cons, words_append_cons hnl, words_eq_singleton hne hall, ih h.tail]
      rfl

theorem areWords_words_append {current : List α} (hcurrent : ∀ c ∈ current, p c = true)
    (s : List α) : AreWords p (words p (current ++ s)) := by
  induction s generalizing current with
  | nil =>
    rw [List.append_nil]
    by_cases hnil : current = []
    · intro w hw
      simp [hnil] at hw
    · intro w hw
      rw [words_eq_singleton hnil hcurrent, List.mem_singleton] at hw
      rw [hw]
      exact ⟨hnil, hcurrent⟩
  | cons c s ih =>
    cases hc : p c with
    | true =>
      rw [List.append_cons]
      apply ih
      intro d hd
      rcases List.mem_append.mp hd with hd | hd
      · exact hcurrent d hd
      · rw [List.mem_singleton.mp hd]
        exact hc
    | false =>
      intro w hw
      rw [words_append_cons hc] at hw
      rcases List.mem_append.mp hw with hw | hw
      · by_cases hnil : current = []
        · simp [hnil] at hw
        · rw [words_eq_singleton hnil hcurrent, List.mem_singleton] at hw
          rw [hw]
          exact ⟨hnil, hcurrent⟩
      · have hrest : AreWords p (words p ([] ++ s)) := ih fun d hd => absurd hd List.not_mem_nil
        exact hrest w hw

theorem areWords_words (s : List α) : AreWords p (words p s) := by
  have hnone : ∀ c ∈ ([] : List α), p c = true := fun c hc => absurd hc List.not_mem_nil
  exact areWords_words_append hnone s

theorem join_ne_nil (h : AreWords p ws) (hws : ws ≠ []) : join nl ws ≠ [] := by
  cases ws with
  | nil => exact absurd rfl hws
  | cons w ws =>
    rw [join_cons_following]
    exact List.append_ne_nil_of_left_ne_nil (h w List.mem_cons_self).1 _

theorem getLast?_join (h : AreWords p ws) : ∀ c ∈ (join nl ws).getLast?, p c = true := by
  induction ws with
  | nil => simp [join]
  | cons w ws ih =>
    intro c hc
    cases ws with
    | nil => exact (h w List.mem_cons_self).2 c (List.mem_of_mem_getLast? hc)
    | cons v ws =>
      have hne : join nl (v :: ws) ≠ [] := join_ne_nil h.tail (List.cons_ne_nil v ws)
      rw [join_cons_cons, List.getLast?_append_of_ne_nil _ (List.cons_ne_nil _ _),
        List.getLast?_cons_of_ne_nil hne] at hc
      exact ih h.tail c hc

theorem head?_join (h : AreWords p ws) : ∀ c ∈ (join nl ws).head?, p c = true := by
  cases ws with
  | nil => simp [join]
  | cons w ws =>
    obtain ⟨hne, hall⟩ := h w List.mem_cons_self
    intro c hc
    rw [join_cons_following, List.head?_append_of_ne_nil _ hne] at hc
    exact hall c (List.mem_of_mem_head? hc)

/-- The words that come before a separator have a length, and others follow it. -/
def SeparatorAt (nl : α) (n : ℕ) (ws : List (List α)) : Prop :=
  ∃ first rest, ws = first ++ rest ∧ first ≠ [] ∧ rest ≠ [] ∧ (join nl first).length = n

/-- A text of words that is cut is one of words again, unless the cut is right behind a separator. -/
theorem take_join (h : AreWords p ws) (n : ℕ) :
    (∃ runs, AreWords p runs ∧ (join nl ws).take (n + 1) = join nl runs) ∨ SeparatorAt nl n ws := by
  induction ws generalizing n with
  | nil => exact Or.inl ⟨[], h, by simp [join]⟩
  | cons w ws ih =>
    obtain ⟨hne, hall⟩ := h w List.mem_cons_self
    have hcut : AreWords p [w.take (n + 1)] := by
      intro v hv
      rw [List.mem_singleton.mp hv]
      exact ⟨by simp [hne], fun c hc => hall c (List.mem_of_mem_take hc)⟩
    cases ws with
    | nil => exact Or.inl ⟨[w.take (n + 1)], hcut, rfl⟩
    | cons v ws =>
      rw [join_cons_cons]
      rcases Nat.lt_trichotomy n w.length with hlt | heq | hgt
      · left
        refine ⟨[w.take (n + 1)], hcut, ?_⟩
        rw [List.take_append_of_le_length (by omega)]
        rfl
      · exact Or.inr ⟨[w], v :: ws, rfl, List.cons_ne_nil _ _, List.cons_ne_nil _ _, heq.symm⟩
      · obtain ⟨m, hm⟩ : ∃ m, n = w.length + 1 + m := ⟨n - w.length - 1, by omega⟩
        rcases ih h.tail m with ⟨runs, hruns, htake⟩ | ⟨first, rest, hsplit, hfirst, hrest, hlength⟩
        · left
          have hrunsNe : runs ≠ [] := by
            intro hnil
            rw [hnil, join, List.take_eq_nil_iff] at htake
            rcases htake with hzero | hjoin
            · omega
            · exact join_ne_nil h.tail (List.cons_ne_nil _ _) hjoin
          refine ⟨w :: runs, ?_, ?_⟩
          · intro x hx
            rcases List.mem_cons.mp hx with rfl | hx
            · exact ⟨hne, hall⟩
            · exact hruns x hx
          · rw [join_cons w hrunsNe, ← htake, List.take_append, List.take_of_length_le (by omega)]
            have hroom : n + 1 - w.length = m + 1 + 1 := by omega
            rw [hroom, List.take_succ_cons]
        · right
          refine ⟨w :: first, rest, by rw [hsplit, List.cons_append], List.cons_ne_nil _ _, hrest, ?_⟩
          rw [join_cons w hfirst, List.length_append, List.length_cons, hlength]
          omega

end Words

theorem toNat_of_isAlphanum {c : Char} (h : c.isAlphanum = true) :
    48 ≤ c.toNat ∧ c.toNat ≤ 122 := by
  have halpha : c.isAlpha = (c.isUpper || c.isLower) := rfl
  have hupper : c.isUpper = decide (c.val ≥ 'A'.val ∧ c.val ≤ 'Z'.val) := rfl
  have hlower : c.isLower = (decide (c.val ≥ 'a'.val) && decide (c.val ≤ 'z'.val)) := rfl
  simp only [Char.isAlphanum, halpha, hupper, hlower, Char.isDigit, Bool.or_eq_true,
    Bool.and_eq_true, decide_eq_true_eq, UInt32.le_iff_toNat_le, ge_iff_le] at h
  have hval : c.toNat = c.val.toNat := rfl
  rcases h with (h | h) | h
  · have hlow : 'A'.val.toNat = 65 := rfl
    have hhigh : 'Z'.val.toNat = 90 := rfl
    omega
  · have hlow : 'a'.val.toNat = 97 := rfl
    have hhigh : 'z'.val.toNat = 122 := rfl
    omega
  · have hlow : '0'.val.toNat = 48 := rfl
    have hhigh : '9'.val.toNat = 57 := rfl
    omega

end TextLines
