import Scriptlet.Segment

/-!
# Cutting loses nothing

A segment and what is left after it are together the text that was read (`text_read`), so the
segments of a text put together are that text (`flatMap_text_cut`).
-/

namespace Scriptlet.Segment

theorem text_readNumber (first : Char) (rest : List Char) :
    (readNumber first rest).1.text ++ (readNumber first rest).2 = first :: rest := by
  have parts : rest.takeWhile Char.isDigit ++ rest.dropWhile Char.isDigit = rest :=
    List.takeWhile_append_dropWhile
  unfold readNumber
  split
  · rename_i digit rest' found
    rw [found] at parts
    split <;> simp [text, parts]
  · simp [text]

theorem text_readWord (first : Char) (rest : List Char) :
    (readWord first rest).1.text ++ (readWord first rest).2 = first :: rest := by
  simp [readWord, text]

theorem text_readString (rest : List Char) :
    (readString rest).1.text ++ (readString rest).2 = '"' :: rest := by
  have parts : rest.takeWhile (· ≠ '"') ++ rest.dropWhile (· ≠ '"') = rest :=
    List.takeWhile_append_dropWhile
  unfold readString
  split
  · simp [text]
  · rename_i quote rest' found
    have isQuote : quote = '"' := by
      have := List.head?_dropWhile_not (· ≠ '"') rest
      rw [found] at this
      simpa using this
    rw [found, isQuote] at parts
    simp only [text, List.cons_append, List.append_assoc, List.nil_append]
    rw [parts]

theorem text_readSlash (rest : List Char) :
    (readSlash rest).1.text ++ (readSlash rest).2 = '/' :: rest := by
  unfold readSlash
  split <;> simp [text]

theorem text_readDouble (first : Char) (withEqual alone : Token.Kind) (rest : List Char) :
    (readDouble first withEqual alone rest).1.text ++
      (readDouble first withEqual alone rest).2 = first :: rest := by
  unfold readDouble
  split <;> simp [text]

/-- Reading a segment loses no character. -/
theorem text_read (first : Char) (rest : List Char) :
    (read first rest).1.text ++ (read first rest).2 = first :: rest := by
  unfold read
  split
  · simp [text]
  · split
    · exact text_readDouble ..
    · split
      · simp_all [text_readSlash]
      split
      · simp [text]
      split
      · simp_all [text]
      split
      · simp_all [text_readString]
      split
      · exact text_readNumber ..
      split
      · exact text_readWord ..
      · simp [text]

/-- A segment that is read is not empty: it begins with the first character. -/
theorem head_text_read (first : Char) (rest : List Char) :
    ∃ more, (read first rest).1.text = first :: more := by
  unfold read
  split
  · exact ⟨_, rfl⟩
  · split
    · unfold readDouble
      split <;> exact ⟨_, rfl⟩
    · split
      · simp_all only
        unfold readSlash
        split <;> exact ⟨_, rfl⟩
      split
      · exact ⟨_, rfl⟩
      split
      · simp_all only
        exact ⟨_, rfl⟩
      split
      · simp_all only
        unfold readString
        split <;> exact ⟨_, rfl⟩
      split
      · unfold readNumber
        split
        · split <;> exact ⟨_, rfl⟩
        · exact ⟨_, rfl⟩
      split
      · exact ⟨_, rfl⟩
      · exact ⟨_, rfl⟩

/-- What is left after a segment is no longer than what follows its first character. -/
theorem length_read (first : Char) (rest : List Char) :
    (read first rest).2.length ≤ rest.length := by
  obtain ⟨more, begins⟩ := head_text_read first rest
  have whole := congrArg List.length (text_read first rest)
  simp only [begins, List.length_append, List.length_cons] at whole
  omega

theorem cutOnto_eq (found : List Segment) (bound : Nat) (text : List Char) :
    cutOnto found bound text = found.reverse ++ cutOnto [] bound text := by
  induction bound generalizing found text with
  | zero => simp [cutOnto]
  | succ bound ih =>
    cases text with
    | nil => simp [cutOnto]
    | cons first rest =>
      simp only [cutOnto]
      rw [ih, ih [_]]
      simp

/-- A bound that covers the text makes no difference. -/
theorem cutOnto_bound {bound other : Nat} {text : List Char} (covers : text.length ≤ bound)
    (otherCovers : text.length ≤ other) : cutOnto [] bound text = cutOnto [] other text := by
  induction bound generalizing other text with
  | zero =>
    cases text with
    | nil => cases other <;> rfl
    | cons first rest => simp at covers
  | succ bound ih =>
    cases text with
    | nil => cases other <;> rfl
    | cons first rest =>
      cases other with
      | zero => simp at otherCovers
      | succ other =>
        have left := length_read first rest
        simp only [List.length_cons, Nat.add_le_add_iff_right] at covers otherCovers
        have same : cutOnto [] bound (read first rest).2 = cutOnto [] other (read first rest).2 :=
          ih (by omega) (by omega)
        simp only [cutOnto]
        rw [cutOnto_eq, cutOnto_eq [_] other, same]

@[simp]
theorem cut_nil : cut [] = [] := rfl

/-- A text is cut into its first segment and the segments of what is left. -/
theorem cut_cons (first : Char) (rest : List Char) :
    cut (first :: rest) = (read first rest).1 :: cut (read first rest).2 := by
  have left := length_read first rest
  simp only [cut, List.length_cons, cutOnto]
  rw [cutOnto_eq, cutOnto_bound left (Nat.le_refl _)]
  simp

/-- What holds of a text if it holds of what is left after the first segment holds of all texts. -/
theorem cut_induction {motive : List Char → Prop} (nil : motive [])
    (cons : ∀ first rest, motive (read first rest).2 → motive (first :: rest))
    (characters : List Char) : motive characters := by
  induction size : characters.length using Nat.strongRecOn generalizing characters with
  | _ size ih =>
    cases characters with
    | nil => exact nil
    | cons first rest =>
      have left := length_read first rest
      subst size
      exact cons first rest (ih _ (by simp only [List.length_cons]; omega) _ rfl)

/-- The segments of a text, put together, are the text. -/
theorem flatMap_text_cut (characters : List Char) :
    (cut characters).flatMap text = characters := by
  induction characters using cut_induction with
  | nil => rfl
  | cons first rest ih => rw [cut_cons, List.flatMap_cons, ih, text_read]

end Scriptlet.Segment
