/-!
# Runs of characters

Both scans and the reading of numerals take the longest run of characters of a class off the front
of a text. A run ends where the rest `Stops`: the rest is empty or starts with a character outside
the class.

Results:
* `takeWhile_append_of_stops`, `dropWhile_append_of_stops`: a run before a rest that stops is the
  longest run.
* `takeWhile_append_of_ne_nil`, `dropWhile_append_of_ne_nil`: a run that ends before its text does
  is the same when the text goes on.
* `mem_takeWhile`, `stops_dropWhile`: the longest run is of the class and the rest stops.
-/

namespace LayoutLex.Text

/-- The text does not start with a character in `p`. -/
def Stops (p : Char → Bool) (cs : List Char) : Prop :=
  ∀ c ∈ cs.head?, p c = false

variable {p : Char → Bool} {c : Char} {cs run rest : List Char}

theorem stops_nil : Stops p [] := fun _ h => by cases h

theorem stops_cons : Stops p (c :: cs) ↔ p c = false := by
  simp [Stops]

theorem mem_takeWhile (h : c ∈ cs.takeWhile p) : p c = true :=
  List.all_eq_true.mp List.all_takeWhile c h

theorem stops_dropWhile (p : Char → Bool) (cs : List Char) : Stops p (cs.dropWhile p) := by
  intro c hc
  have h := List.head?_dropWhile_not p cs
  rw [hc] at h
  exact h

theorem takeWhile_of_stops (h : Stops p cs) : cs.takeWhile p = [] := by
  cases cs with
  | nil => rfl
  | cons c cs => rw [List.takeWhile_cons, stops_cons.mp h]; rfl

theorem dropWhile_of_stops (h : Stops p cs) : cs.dropWhile p = cs := by
  cases cs with
  | nil => rfl
  | cons c cs => rw [List.dropWhile_cons, stops_cons.mp h]; rfl

theorem takeWhile_of_dropWhile_eq_nil (h : cs.dropWhile p = []) : cs.takeWhile p = cs := by
  have hsplit := List.takeWhile_append_dropWhile (p := p) (l := cs)
  rwa [h, List.append_nil] at hsplit

theorem takeWhile_append_of_stops (hrun : ∀ c ∈ run, p c = true) (hrest : Stops p rest) :
    (run ++ rest).takeWhile p = run := by
  rw [List.takeWhile_append_of_pos hrun, takeWhile_of_stops hrest, List.append_nil]

theorem dropWhile_append_of_stops (hrun : ∀ c ∈ run, p c = true) (hrest : Stops p rest) :
    (run ++ rest).dropWhile p = rest := by
  rw [List.dropWhile_append_of_pos hrun, dropWhile_of_stops hrest]

/-- A run that ends before its text does is the same when the text goes on. -/
theorem stops_append (hne : cs ≠ []) (h : Stops p cs) (tail : List Char) :
    Stops p (cs ++ tail) := by
  cases cs with
  | nil => exact absurd rfl hne
  | cons c cs => exact stops_cons.mpr (stops_cons.mp h)

theorem stops_of_append {tail : List Char} (h : Stops p (cs ++ tail)) : Stops p cs := by
  cases cs with
  | nil => exact stops_nil
  | cons c cs => exact stops_cons.mpr (stops_cons.mp h)

theorem takeWhile_append_of_ne_nil (h : cs.dropWhile p ≠ []) (tail : List Char) :
    (cs ++ tail).takeWhile p = cs.takeWhile p := by
  have hrun : ∀ c ∈ cs.takeWhile p, p c = true := fun _ hc => mem_takeWhile hc
  have htake := takeWhile_append_of_stops hrun (stops_append h (stops_dropWhile p cs) tail)
  rwa [← List.append_assoc, List.takeWhile_append_dropWhile] at htake

theorem dropWhile_append_of_ne_nil (h : cs.dropWhile p ≠ []) (tail : List Char) :
    (cs ++ tail).dropWhile p = cs.dropWhile p ++ tail := by
  have hrun : ∀ c ∈ cs.takeWhile p, p c = true := fun _ hc => mem_takeWhile hc
  have hdrop := dropWhile_append_of_stops hrun (stops_append h (stops_dropWhile p cs) tail)
  rwa [← List.append_assoc, List.takeWhile_append_dropWhile] at hdrop

/-- A run that goes on to the end of its text takes what it can of a text added there. -/
theorem dropWhile_append_of_eq_nil (h : cs.dropWhile p = []) (tail : List Char) :
    (cs ++ tail).dropWhile p = tail.dropWhile p := by
  rw [List.dropWhile_append, h]
  rfl

/-- A run is not affected by a text that does not go on with it. -/
theorem takeWhile_append_of_stops_right (h : Stops p rest) (cs : List Char) :
    (cs ++ rest).takeWhile p = cs.takeWhile p := by
  by_cases hcs : cs.dropWhile p = []
  · have hall : ∀ c ∈ cs, p c = true := fun c hc =>
      mem_takeWhile (takeWhile_of_dropWhile_eq_nil hcs ▸ hc)
    rw [takeWhile_append_of_stops hall h, takeWhile_of_dropWhile_eq_nil hcs]
  · exact takeWhile_append_of_ne_nil hcs rest

theorem dropWhile_append_of_stops_right (h : Stops p rest) (cs : List Char) :
    (cs ++ rest).dropWhile p = cs.dropWhile p ++ rest := by
  by_cases hcs : cs.dropWhile p = []
  · rw [dropWhile_append_of_eq_nil hcs, dropWhile_of_stops h, hcs, List.nil_append]
  · exact dropWhile_append_of_ne_nil hcs rest

end LayoutLex.Text
