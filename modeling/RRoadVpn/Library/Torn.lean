import RRoadVpn.Library.Decoder

/-! Cuts through encoded pieces, and decoders on an input whose end was torn off
and padded. A decoder that once reads padding goes on reading nothing else. -/

namespace RRoadVpn.Library

variable {α ε β γ : Type}

/-! ### Cuts -/

/-- The pieces whose encodings end before the n-th element, and what is left of
the piece after them. -/
def cut (encode : β → List α) : Nat → List β → List β × List α
  | _, [] => ([], [])
  | n, piece :: pieces =>
    if (encode piece).length ≤ n then
      let rest := cut encode (n - (encode piece).length) pieces
      (piece :: rest.1, rest.2)
    else ([], (encode piece).take n)

theorem take_flatMap (encode : β → List α) (n : Nat) (pieces : List β) :
    (pieces.flatMap encode).take n = (cut encode n pieces).1.flatMap encode ++ (cut encode n pieces).2 := by
  induction pieces generalizing n with
  | nil => simp [cut]
  | cons piece pieces ih =>
    rw [List.flatMap_cons, List.take_append, cut]
    split
    next fits => rw [ih, List.take_of_length_le fits, List.flatMap_cons, List.append_assoc]
    next torn => simp [Nat.sub_eq_zero_of_le (Nat.le_of_not_le torn)]

def TornOff (input part : List α) : Prop := ∃ lost, lost ≠ [] ∧ input = part ++ lost

/-- Either nothing is left over, or a proper prefix of the next piece's encoding. -/
theorem cut_torn (encode : β → List α) (n : Nat) (pieces : List β) :
    (cut encode n pieces).1 = pieces ∧ (cut encode n pieces).2 = [] ∨
      ∃ piece later, pieces = (cut encode n pieces).1 ++ piece :: later ∧
        TornOff (encode piece) (cut encode n pieces).2 := by
  induction pieces generalizing n with
  | nil => exact Or.inl ⟨rfl, rfl⟩
  | cons piece pieces ih =>
    rw [cut]
    split
    · rcases ih (n - (encode piece).length) with ⟨same, nothing⟩ | ⟨torn, later, split, off⟩
      · exact Or.inl ⟨congrArg (piece :: ·) same, nothing⟩
      · exact Or.inr ⟨torn, later, congrArg (piece :: ·) split, off⟩
    next torn =>
      refine Or.inr ⟨piece, pieces, rfl, (encode piece).drop n, ?_, (List.take_append_drop n _).symm⟩
      intro none_
      exact torn (List.drop_eq_nil_iff.mp none_)

theorem TornOff.length {input part : List α} (torn : TornOff input part) : part.length < input.length := by
  obtain ⟨lost, some_, rfl⟩ := torn
  have := List.length_pos_iff.mpr some_
  rw [List.length_append]
  omega

theorem TornOff.of_append {first second part : List α} (torn : TornOff (first ++ second) part) :
    TornOff first part ∨ ∃ rest, part = first ++ rest ∧ TornOff second rest := by
  obtain ⟨lost, some_, split⟩ := torn
  rcases List.append_eq_append_iff.mp split with ⟨rest, rfl, rfl⟩ | ⟨more, rfl, rfl⟩
  · exact Or.inr ⟨rest, rfl, lost, some_, rfl⟩
  · by_cases empty : more = []
    · subst empty
      exact Or.inr ⟨[], by simp, second, some_, rfl⟩
    · exact Or.inl ⟨more, empty, rfl⟩

/-! ### Padded input -/

theorem bind_of_ok {first : Decoder α ε β} {next : β → Decoder α ε γ} {input rest : List α} {value : β}
    (read : first input = .ok (value, rest)) : (first >>= next) input = next value rest := by
  show (Except.bind (first input) fun x => next x.1 x.2) = _
  rw [read]
  rfl

theorem Decodes.bind_eq {first : Decoder α ε β} {input : List α} {value : β} (head : Decodes first input value)
    (next : β → Decoder α ε γ) (rest : List α) : (first >>= next) (input ++ rest) = next value rest :=
  bind_of_ok (head rest)

/-- The decoder takes exactly `n` elements, whatever they are. -/
def Takes (n : Nat) (decoder : Decoder α ε β) : Prop :=
  ∀ input, (n ≤ input.length ∧ ∃ value, decoder input = .ok (value, input.drop n)) ∨
    (input.length < n ∧ Fails decoder input)

namespace Takes

theorem take (short : ε) (n : Nat) : Takes n (take short n : Decoder α ε (List α)) := by
  intro input
  unfold Library.take
  by_cases enough : n ≤ input.length
  · exact Or.inl ⟨enough, _, if_pos enough⟩
  · exact Or.inr ⟨Nat.lt_of_not_le enough, _, if_neg enough⟩

theorem map {n : Nat} {decoder : Decoder α ε β} (takes : Takes n decoder) (f : β → γ) :
    Takes n (do return f (← decoder)) := by
  intro input
  rcases takes input with ⟨enough, value, read⟩ | ⟨short, failed⟩
  · exact Or.inl ⟨enough, f value, bind_of_ok read⟩
  · exact Or.inr ⟨short, failed.bind⟩

end Takes

theorem take_padded (pad : α) (short : ε) {n : Nat} {part : List α} (small : part.length ≤ n) (m : Nat) :
    (m < n - part.length ∧ Fails (take short n) (part ++ List.replicate m pad)) ∨
      ∃ k, m = n - part.length + k ∧ take short n (part ++ List.replicate m pad) =
        .ok (part ++ List.replicate (n - part.length) pad, List.replicate k pad) := by
  by_cases enough : n ≤ part.length + m
  · obtain ⟨k, rfl⟩ : ∃ k, m = n - part.length + k := ⟨m - (n - part.length), by omega⟩
    have read := Decodes.take short (part ++ List.replicate (n - part.length) pad) (List.replicate k pad)
    have size : (part ++ List.replicate (n - part.length) pad).length = n := by
      simp
      omega
    rw [size, List.append_assoc, List.replicate_append_replicate] at read
    exact Or.inr ⟨k, rfl, read⟩
  · refine Or.inl ⟨by omega, short, if_neg ?_⟩
    simpa using enough

variable (pad : α)

/-- On this input and any padding the decoder fails or leaves only padding. -/
def Pads (decoder : Decoder α ε β) (input : List α) : Prop :=
  ∀ m, Fails decoder (input ++ List.replicate m pad) ∨
    ∃ value k, decoder (input ++ List.replicate m pad) = .ok (value, List.replicate k pad)

/-- On this input and any padding the decoder fails. -/
def Stops (decoder : Decoder α ε β) (input : List α) : Prop :=
  ∀ m, Fails decoder (input ++ List.replicate m pad)

variable {pad}

theorem Takes.pads {n : Nat} {decoder : Decoder α ε β} (takes : Takes n decoder) {input : List α}
    (small : input.length ≤ n) : Pads pad decoder input := by
  intro m
  rcases takes (input ++ List.replicate m pad) with ⟨-, value, read⟩ | ⟨-, failed⟩
  · refine Or.inr ⟨value, m - (n - input.length), ?_⟩
    rw [read, List.drop_append, List.drop_eq_nil_of_le small, List.nil_append, List.drop_replicate]
  · exact Or.inl failed

namespace Stops

variable {first : Decoder α ε β} {next : β → Decoder α ε γ} {input later : List α} {value : β}

theorem fail (error : ε) : Stops pad (fail error : Decoder α ε γ) input := fun _ => ⟨error, rfl⟩

theorem head (stops : Stops pad first input) : Stops pad (first >>= next) input := fun m => (stops m).bind

theorem bind (pads : Pads pad first input) (stops : ∀ value, Stops pad (next value) []) :
    Stops pad (first >>= next) input := by
  intro m
  rcases pads m with failed | ⟨value, k, read⟩
  · exact failed.bind
  · exact Fails.after read (stops value k)

theorem after (head : Decodes first input value) (stops : Stops pad (next value) later) :
    Stops pad (first >>= next) (input ++ later) := by
  intro m
  rw [List.append_assoc]
  exact Fails.after (head _) (stops m)

theorem pads {decoder : Decoder α ε β} (stops : Stops pad decoder input) : Pads pad decoder input :=
  fun m => Or.inl (stops m)

end Stops

namespace Pads

variable {first : Decoder α ε β} {next : β → Decoder α ε γ} {input later : List α} {value : β}

theorem pure (result : γ) : Pads pad (Pure.pure result : Decoder α ε γ) [] := fun m => Or.inr ⟨result, m, rfl⟩

theorem bind (head : Pads pad first input) (tail : ∀ value, Pads pad (next value) []) :
    Pads pad (first >>= next) input := by
  intro m
  rcases head m with failed | ⟨value, k, read⟩
  · exact Or.inl failed.bind
  · refine (tail value k).imp (Fails.after read) ?_
    rintro ⟨result, left, later⟩
    exact ⟨result, left, (bind_of_ok read).trans later⟩

theorem after (head : Decodes first input value) (tail : Pads pad (next value) later) :
    Pads pad (first >>= next) (input ++ later) := by
  intro m
  rw [List.append_assoc]
  refine (tail m).imp (Fails.after (head _)) ?_
  rintro ⟨result, left, later⟩
  exact ⟨result, left, (head.bind_eq _ _).trans later⟩

theorem map (head : Pads pad first input) (f : β → γ) : Pads pad (do return f (← first)) input :=
  head.bind fun value => pure (f value)

theorem remaining {next : Nat → Decoder α ε γ} (tail : ∀ left, Pads pad (next left) input) :
    Pads pad (remaining >>= next) input :=
  fun m => tail _ m

end Pads

/-- What a decoder makes of an input whose end is padding instead: as long as at
most `n` elements were lost it yields such a value, and otherwise it fails. -/
structure Spares (pad : α) (decoder : Decoder α ε β) (input : List α) (n : Nat) (property : β → Prop) : Prop where
  bounded : n ≤ input.length
  pads : ∀ part, TornOff input part → Pads pad decoder part
  spared : ∀ part, TornOff input part → input.length - part.length ≤ n → ∃ value, property value ∧
    decoder (part ++ List.replicate (input.length - part.length) pad) = .ok (value, [])
  lost : ∀ part, TornOff input part → n < input.length - part.length →
    Fails decoder (part ++ List.replicate (input.length - part.length) pad)

theorem Takes.spares {decoder : Decoder α ε β} {input : List α} (takes : Takes input.length decoder) :
    Spares pad decoder input input.length fun _ => True where
  bounded := Nat.le_refl _
  pads := fun part torn => takes.pads (Nat.le_of_lt torn.length)
  spared := by
    intro part torn _
    have length := torn.length
    have whole : (part ++ List.replicate (input.length - part.length) pad).length = input.length := by
      simp
      omega
    rcases takes (part ++ List.replicate (input.length - part.length) pad) with ⟨-, value, read⟩ | ⟨short, -⟩
    · refine ⟨value, trivial, ?_⟩
      rw [read, List.drop_eq_nil_of_le (Nat.le_of_eq whole)]
    · omega
  lost := fun part torn many => absurd many (by omega)

namespace Spares

variable {first : Decoder α ε β} {next : β → Decoder α ε γ} {input later : List α} {value : β} {n : Nat}
  {property : γ → Prop}

theorem of_stops {decoder : Decoder α ε γ} (stops : ∀ part, TornOff input part → Stops pad decoder part) :
    Spares pad decoder input 0 property where
  bounded := Nat.zero_le _
  pads := fun part torn => (stops part torn).pads
  spared := fun part torn few => absurd torn.length (by omega)
  lost := fun part torn _ => stops part torn _

theorem after (head : Decodes first input value)
    (stops : ∀ part, TornOff input part → Stops pad (first >>= next) part)
    (tail : Spares pad (next value) later n property) : Spares pad (first >>= next) (input ++ later) n property where
  bounded := by
    have := tail.bounded
    rw [List.length_append]
    omega
  pads := by
    intro part torn
    rcases torn.of_append with early | ⟨rest, rfl, late⟩
    · exact (stops part early).pads
    · exact Pads.after head (tail.pads rest late)
  spared := by
    intro part torn little
    rcases torn.of_append with early | ⟨rest, rfl, late⟩
    · have := early.length
      have := tail.bounded
      rw [List.length_append] at little
      omega
    · simp only [List.length_append, Nat.add_sub_add_left, List.append_assoc] at little ⊢
      obtain ⟨result, holds, read⟩ := tail.spared rest late little
      exact ⟨result, holds, (head.bind_eq _ _).trans read⟩
  lost := by
    intro part torn many
    rcases torn.of_append with early | ⟨rest, rfl, late⟩
    · exact stops part early _
    · simp only [List.length_append, Nat.add_sub_add_left, List.append_assoc] at many ⊢
      exact Fails.after (head _) (tail.lost rest late many)

theorem after_takes (head : Decodes first input value) (takes : Takes input.length first)
    (padding : ∀ value, Stops pad (next value) []) (tail : Spares pad (next value) later n property) :
    Spares pad (first >>= next) (input ++ later) n property :=
  after head (fun _ torn => Stops.bind (takes.pads (Nat.le_of_lt torn.length)) padding) tail

theorem bind_pure {known : β → Prop} (head : Spares pad first input n known) {f : β → γ}
    (holds : ∀ value, known value → property (f value)) :
    Spares pad (do return f (← first)) input n property where
  bounded := head.bounded
  pads := fun part torn => (head.pads part torn).map f
  spared := by
    intro part torn little
    obtain ⟨value, knows, read⟩ := head.spared part torn little
    exact ⟨f value, holds value knows, bind_of_ok read⟩
  lost := fun part torn many => (head.lost part torn many).bind

end Spares

end RRoadVpn.Library
