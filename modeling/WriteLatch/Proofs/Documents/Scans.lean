import WriteLatch.Json.Frame
import WriteLatch.Json.Printer

/-!
# Scans one after another

A scan is followed through a text step by step, each step taking up what the one
before it has left.  Backwards, a property of everything that a scan can give is
carried from its last step to the whole of it.  Of the punctuation of documents
it is said here what each piece takes away and what it leaves.
-/

namespace WriteLatch
namespace Json

variable {α β : Type}

/-!
## Steps
-/

namespace Scan

theorem run_bind_of_run {x : Scan α} {f : α -> Scan β} {s t : List Char} {a : α}
    (h : x.run s = .ok (a, t)) : (x >>= f).run s = (f a).run t := by
  rw [StateT.run_bind, h]
  rfl

theorem exists_of_run_bind {x : Scan α} {f : α -> Scan β} {s u : List Char} {b : β}
    (h : (x >>= f).run s = .ok (b, u)) :
    ∃ a t, x.run s = .ok (a, t) ∧ (f a).run t = .ok (b, u) := by
  rw [StateT.run_bind] at h
  cases hx : x.run s with
  | error fault =>
      rw [hx] at h
      cases h
  | ok read =>
      rw [hx] at h
      exact ⟨read.1, read.2, rfl, h⟩

/-- Whatever the scan reads has the property. -/
def Yields (P : α -> Prop) (x : Scan α) : Prop :=
  ∀ s a t, x.run s = .ok (a, t) -> P a

theorem yields_of_forall {P : α -> Prop} (h : ∀ a, P a) (x : Scan α) : x.Yields P :=
  fun _ a _ _ => h a

theorem yields_fail (P : α -> Prop) (fault : Fault) : (fail fault : Scan α).Yields P := by
  intro s a t h
  cases h

theorem yields_pure {P : α -> Prop} {a : α} (h : P a) : (pure a : Scan α).Yields P := by
  intro s b t hrun
  cases hrun
  exact h

theorem Yields.bind {Q : α -> Prop} {P : β -> Prop} {x : Scan α} {f : α -> Scan β}
    (hx : x.Yields Q) (hf : ∀ a, Q a -> (f a).Yields P) : (x >>= f).Yields P := by
  intro s b u h
  rcases exists_of_run_bind h with ⟨a, t, hrun, hrest⟩
  exact hf a (hx s a t hrun) t b u hrest

/-- Nothing has to be known of the first of two scans. -/
theorem yields_bind {P : β -> Prop} {x : Scan α} {f : α -> Scan β}
    (hf : ∀ a, (f a).Yields P) : (x >>= f).Yields P := by
  intro s b u h
  rcases exists_of_run_bind h with ⟨a, t, _, hrest⟩
  exact hf a t b u hrest

theorem Yields.ite {P : α -> Prop} {c : Prop} [Decidable c] {x y : Scan α}
    (hx : c -> x.Yields P) (hy : ¬ c -> y.Yields P) : (if c then x else y).Yields P := by
  by_cases hc : c
  · rw [if_pos hc]
    exact hx hc
  · rw [if_neg hc]
    exact hy hc

end Scan

/-!
## Punctuation
-/

theorem run_peek_cons {c : Char} (hc : isBlank c = false) (s : List Char) :
    peek.run (c :: s) = .ok (some c, c :: s) := by
  rw [peek, Scan.run_onRest, List.dropWhile_cons_of_neg (by rw [hc]; exact Bool.false_ne_true)]
  rfl

theorem run_peek_bind {c : Char} (hc : isBlank c = false) (f : Option Char -> Scan α)
    (s : List Char) : (peek >>= f).run (c :: s) = (f (some c)).run (c :: s) :=
  Scan.run_bind_of_run (run_peek_cons hc s)

theorem run_advance_bind (f : Unit -> Scan α) (c : Char) (s : List Char) :
    (advance >>= f).run (c :: s) = (f ()).run s :=
  Scan.run_bind_of_run rfl

theorem run_get_bind (f : List Char -> Scan α) (s : List Char) :
    (get >>= f).run s = (f s).run s := rfl

theorem word_go_append (cs s : List Char) : word.go cs (cs ++ s) = .ok ((), s) := by
  induction cs with
  | nil => rfl
  | cons c cs ih =>
      rw [List.cons_append, word.go, if_pos rfl, ih]

theorem run_word (cs s : List Char) : (word cs).run (cs ++ s) = .ok ((), s) :=
  word_go_append cs s

theorem run_punctuation {mark : Char} (hmark : isBlank mark = false) (s : List Char) :
    (punctuation mark).run (mark :: s) = .ok ((), s) := by
  rw [punctuation, run_peek_bind hmark]
  dsimp only
  rw [if_pos rfl]
  rfl

theorem run_colon (s : List Char) : colon.run (':' :: s) = .ok ((), s) :=
  run_punctuation rfl s

theorem run_closeObject (s : List Char) : closeObject.run ('}' :: s) = .ok ((), s) :=
  run_punctuation rfl s

theorem run_closeList (s : List Char) : closeList.run (']' :: s) = .ok ((), s) :=
  run_punctuation rfl s

/-!
## Where a container goes on
-/

/-- What stands before an item of a container: a comma, unless it is the first. -/
def separator (first : Bool) : List Char :=
  if first then [] else [',']

theorem run_nextItem_end (first : Bool) (s : List Char) :
    (nextItem first).run (']' :: s) = .ok (false, ']' :: s) := by
  rw [nextItem, run_peek_bind rfl]
  dsimp only
  rw [if_pos rfl]
  rfl

/-- What is written of an item begins with a character by which a list goes on. -/
def BeginsItem (item : List Char) : Prop :=
  ∃ c cs, item = c :: cs ∧ isBlank c = false ∧ c ≠ ']'

theorem BeginsItem.length_pos {item : List Char} (h : BeginsItem item) : 0 < item.length := by
  rcases h with ⟨c, cs, rfl, _, _⟩
  exact Nat.succ_pos cs.length

theorem run_nextItem {item : List Char} (hitem : BeginsItem item) (first : Bool)
    (s : List Char) :
    (nextItem first).run (separator first ++ (item ++ s)) = .ok (true, item ++ s) := by
  rcases hitem with ⟨c, cs, rfl, hblank, hc⟩
  cases first with
  | true =>
      change (nextItem true).run (c :: (cs ++ s)) = _
      rw [nextItem, run_peek_bind hblank]
      dsimp only
      rw [if_neg hc, if_pos rfl]
      rfl
  | false =>
      change (nextItem false).run (',' :: c :: (cs ++ s)) = _
      rw [nextItem, run_peek_bind rfl]
      dsimp only
      rw [if_neg (by decide), if_neg (by decide), if_pos rfl, run_advance_bind,
        run_peek_bind hblank]
      dsimp only
      rw [if_neg hc]
      rfl

theorem run_nextMember_end (first : Bool) (s : List Char) :
    (nextMember first).run ('}' :: s) = .ok (false, '}' :: s) := by
  rw [nextMember, run_peek_bind rfl]
  dsimp only
  rw [if_pos rfl]
  rfl

theorem run_nextMember (first : Bool) (s : List Char) :
    (nextMember first).run (separator first ++ '"' :: s) = .ok (true, s) := by
  cases first with
  | true =>
      change (nextMember true).run ('"' :: s) = _
      rw [nextMember, run_peek_bind rfl]
      dsimp only
      rw [if_neg (by decide), if_pos rfl, if_pos rfl, run_advance_bind]
      rfl
  | false =>
      change (nextMember false).run (',' :: '"' :: s) = _
      rw [nextMember, run_peek_bind rfl]
      dsimp only
      rw [if_neg (by decide), if_neg (by decide), if_pos rfl, run_advance_bind,
        run_peek_bind rfl]
      dsimp only
      rw [if_pos rfl, run_advance_bind]
      rfl

/-- Items in a row, from the first or from a later one on. -/
def sequenceChars (first : Bool) (items : List (List Char)) : List Char :=
  if first then commaSeparated items else items.flatMap (',' :: ·)

theorem commaSeparated_cons (item : List Char) (items : List (List Char)) :
    commaSeparated (item :: items) = item ++ items.flatMap (',' :: ·) := by
  induction items generalizing item with
  | nil => simp [commaSeparated]
  | cons next items ih =>
      rw [commaSeparated, ih, List.flatMap_cons, List.cons_append]
      exact List.cons_ne_nil next items

theorem sequenceChars_nil (first : Bool) : sequenceChars first [] = [] := by
  cases first <;> rfl

theorem sequenceChars_cons (first : Bool) (item : List Char) (items : List (List Char)) :
    sequenceChars first (item :: items) = separator first ++ item ++ sequenceChars false items := by
  cases first with
  | true => exact commaSeparated_cons item items
  | false => rfl

theorem listChars_append (items : List (List Char)) (s : List Char) :
    listChars items ++ s = '[' :: (sequenceChars true items ++ ']' :: s) := by
  rw [listChars, List.cons_append, List.append_assoc]
  rfl

theorem objectChars_append (members : List (List Char)) (s : List Char) :
    objectChars members ++ s = '{' :: (sequenceChars true members ++ '}' :: s) := by
  rw [objectChars, List.cons_append, List.append_assoc]
  rfl

theorem length_sequenceChars_lt_list (items : List (List Char)) :
    (sequenceChars true items).length < (listChars items).length := by
  have hchars := congrArg List.length (listChars_append items [])
  simp only [List.append_nil, List.length_cons, List.length_append, List.length_nil] at hchars
  omega

theorem length_sequenceChars_lt_object (members : List (List Char)) :
    (sequenceChars true members).length < (objectChars members).length := by
  have hchars := congrArg List.length (objectChars_append members [])
  simp only [List.append_nil, List.length_cons, List.length_append, List.length_nil] at hchars
  omega

/-!
## Scalars
-/

theorem run_readBool (b : Bool) (s : List Char) :
    readBool.run (boolChars b ++ s) = .ok (b, s) := by
  cases b with
  | true =>
      change readBool.run ('t' :: (['r', 'u', 'e'] ++ s)) = _
      rw [readBool, run_peek_bind rfl]
      dsimp only
      rw [if_pos rfl, run_advance_bind, Scan.run_bind_of_run (run_word _ s)]
      rfl
  | false =>
      change readBool.run ('f' :: (['a', 'l', 's', 'e'] ++ s)) = _
      rw [readBool, run_peek_bind rfl]
      dsimp only
      rw [if_neg (by decide), if_pos rfl, run_advance_bind, Scan.run_bind_of_run (run_word _ s)]
      rfl

theorem run_readOptional_null (read : Scan α) (s : List Char) :
    (readOptional read).run (nullChars ++ s) = .ok (none, s) := by
  change (readOptional read).run ('n' :: (['u', 'l', 'l'] ++ s)) = _
  rw [readOptional, run_peek_bind rfl, if_pos rfl, run_advance_bind,
    Scan.run_bind_of_run (run_word _ s)]
  rfl

theorem run_readOptional_some {read : Scan α} {c : Char} {s t : List Char} {a : α}
    (hblank : isBlank c = false) (hc : c ≠ 'n') (h : read.run (c :: s) = .ok (a, t)) :
    (readOptional read).run (c :: s) = .ok (some a, t) := by
  rw [readOptional, run_peek_bind hblank, if_neg (fun heq => hc (Option.some.inj heq)),
    Scan.run_bind_of_run h]
  rfl

/-- A scalar of the wrong kind is read to its end, and nothing is made of it. -/
theorem yields_wrongKind (P : α -> Prop) : (wrongKind : Scan α).Yields P := by
  have hfails {β : Type} (x : Scan β) : (x >>= fun _ => Scan.fail .misshapen : Scan α).Yields P :=
    Scan.yields_bind fun _ => Scan.yields_fail P _
  refine Scan.yields_bind fun c => ?_
  cases c with
  | none => exact Scan.yields_fail P _
  | some c =>
      refine Scan.Yields.ite (fun _ => Scan.yields_bind fun _ => hfails _) fun _ => ?_
      refine Scan.Yields.ite (fun _ => Scan.yields_bind fun _ => hfails _) fun _ => ?_
      refine Scan.Yields.ite (fun _ => Scan.yields_bind fun _ => hfails _) fun _ => ?_
      refine Scan.Yields.ite (fun _ => hfails _) fun _ => ?_
      refine Scan.Yields.ite (fun _ => Scan.yields_bind fun _ => hfails _) fun _ => ?_
      exact Scan.Yields.ite (fun _ => Scan.yields_fail P _) fun _ => Scan.yields_fail P _

theorem yields_readOptional {P : α -> Prop} {read : Scan α} (h : read.Yields P) :
    (readOptional read).Yields fun found => ∀ a, found = some a -> P a := by
  refine Scan.yields_bind fun c => Scan.Yields.ite (fun _ => ?_) (fun _ => ?_)
  · exact Scan.yields_bind fun _ => Scan.yields_bind fun _ => Scan.yields_pure nofun
  · refine h.bind fun a ha => Scan.yields_pure ?_
    rintro _ ⟨⟩
    exact ha

/-!
## Whole documents
-/

/-- Twice the length of a document is fuel for reading it, as its length is. -/
theorem readWhole_of_reads (read : Nat -> Scan α) {cs : List Char} {a : α}
    (h : ∀ fuel, cs.length <= fuel -> ∀ s, (read fuel).run (cs ++ s) = .ok (a, s)) :
    readWhole (do read (2 * (<- get).length + 2)) (String.ofList cs) = .ok a := by
  have hread := h (2 * cs.length + 2) (by omega) []
  rw [List.append_nil] at hread
  rw [readWhole, String.toList_ofList, run_get_bind, hread]
  rfl

theorem exists_of_readWhole {read : Scan α} {text : String} {a : α}
    (h : readWhole read text = .ok a) : ∃ rest, read.run text.toList = .ok (a, rest) := by
  rw [readWhole] at h
  cases hread : read.run text.toList with
  | error fault =>
      rw [hread] at h
      cases h
  | ok result =>
      rcases result with ⟨b, rest⟩
      rw [hread] at h
      refine ⟨rest, ?_⟩
      by_cases hrest : (rest.dropWhile isBlank).isEmpty = true
      · change (if (rest.dropWhile isBlank).isEmpty = true then Except.ok b else _) = _ at h
        rw [if_pos hrest] at h
        rw [Except.ok.inj h]
      · change (if (rest.dropWhile isBlank).isEmpty = true then _ else Except.error _) = _ at h
        rw [if_neg hrest] at h
        cases h

/-- What every fuel keeps to holds of whatever is read as a whole document. -/
theorem of_readWhole (read : Nat -> Scan α) {P : α -> Prop} {text : String} {a : α}
    (hread : ∀ fuel, (read fuel).Yields P)
    (h : readWhole (do read (2 * (<- get).length + 2)) text = .ok a) : P a := by
  rcases exists_of_readWhole h with ⟨rest, hrun⟩
  rw [run_get_bind] at hrun
  exact hread _ _ a rest hrun

end Json
end WriteLatch
