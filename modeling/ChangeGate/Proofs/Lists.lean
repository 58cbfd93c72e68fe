/-!
# Lists

What becomes of a list as an item takes the place of another, and when a list that is built up
item by item comes out as it was given.
-/

namespace ChangeGate

variable {α : Type} {items : List α} {i : Nat} {old : α}

/-- What is at each place once an item has been replaced. -/
theorem getElem?_put (hold : items[i]? = some old) (new : α) (j : Nat) :
    (items.set i new)[j]? = if i = j then some new else items[j]? := by
  rw [List.getElem?_set']
  split
  · rename_i hij
    rw [← hij, hold]
    rfl
  · rfl

theorem getElem?_put_self (hold : items[i]? = some old) (new : α) :
    (items.set i new)[i]? = some new := by
  rw [getElem?_put hold, if_pos rfl]

theorem put_self (hold : items[i]? = some old) : items.set i old = items := by
  refine List.ext_getElem? fun j => ?_
  rw [getElem?_put hold]
  split
  · rename_i hij
    rw [← hij, hold]
  · rfl

/-- **A list is built up again** if each of its items comes to stand behind those before it. -/
theorem foldl_append {f : List α → α → List α} {later before : List α}
    (hitem : ∀ earlier item rest, earlier ++ item :: rest = before ++ later →
      f earlier item = earlier ++ [item]) : later.foldl f before = before ++ later := by
  induction later generalizing before with
  | nil => simp
  | cons item later ih =>
    have hfirst := hitem before item later rfl
    have hsplit : before ++ item :: later = (before ++ [item]) ++ later := by simp
    rw [List.foldl_cons, hfirst, hsplit]
    exact ih fun earlier next rest heq => hitem earlier next rest (heq.trans hsplit.symm)

end ChangeGate
