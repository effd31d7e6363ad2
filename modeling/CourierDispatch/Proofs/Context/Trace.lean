import CourierDispatch.Proofs.Context

/-!
# The grammar of a trace

A trace is written as a version, the id of the trace, the id of the span and the flags, all of them in
hexadecimal digits of either letter case, with hyphens in between. `Spelt` says so without `trace?`. Every
text of this grammar is read, and besides it only the texts that are `Misspelt`: their flags are a digit
behind a plus sign, or their version is the forbidden one with a capital letter.
-/

namespace CourierDispatch.Context

def lowered (cs : List Char) : String := String.ofList (cs.map Char.toLower)

/-- Two hexadecimal digits other than `ff`, which is forbidden in capitals as well. -/
structure IsVersion (cs : List Char) : Prop where
  length : cs.length = 2
  digits : ∀ c ∈ cs, c.toLower ∈ Hex.alphabet
  allowed : cs.map Char.toLower ≠ ['f', 'f']

def IsFlags (cs : List Char) (n : Nat) : Prop :=
  n < 256 ∧ cs.map Char.toLower = Hex.digits 2 n

/-- The forbidden version with a capital letter in it. -/
structure IsLoudVersion (cs : List Char) : Prop where
  forbidden : cs.map Char.toLower = ['f', 'f']
  loud : cs ≠ ['f', 'f']

/-- One digit behind a plus sign in the place of the flags. -/
def IsSignedFlags (cs : List Char) (n : Nat) : Prop :=
  ∃ c, cs = ['+', c] ∧ n < 16 ∧ [c.toLower] = Hex.digits 1 n

/-- The four fields with hyphens between them, and anything behind one more hyphen. The ids are read in
lower case, and of the flags the lowest bit. -/
inductive Laid (Version : List Char → Prop) (Flags : List Char → Nat → Prop) :
    List Char → Trace → Prop
  | intro {version trace span flags rest : List Char} {n : Nat} (hversion : Version version)
    (htrace : IsId 32 (lowered trace)) (hspan : IsId 16 (lowered span)) (hflags : Flags flags n)
    (hrest : rest = [] ∨ ∃ more, rest = '-' :: more) :
    Laid Version Flags (version ++ '-' :: (trace ++ '-' :: (span ++ '-' :: (flags ++ rest))))
      ⟨lowered trace, lowered span, n.testBit 0⟩

/-- Without the blanks around it, the text is of the grammar and says the trace. -/
def Spelt (s : String) : Trace → Prop := Laid IsVersion IsFlags (Text.trim s.toList)

/-- The text would be of the grammar with another version, or without a sign in the flags. -/
def Misspelt (s : String) (t : Trace) : Prop :=
  Laid IsLoudVersion (fun cs n => IsFlags cs n ∨ IsSignedFlags cs n) (Text.trim s.toList) t ∨
    Laid IsVersion IsSignedFlags (Text.trim s.toList) t

/-! The fields, one by one. -/

theorem id?_eq_some_iff {length : Nat} {cs : List Char} {s : String} :
    id? length cs = some s ↔ IsId length (lowered cs) ∧ lowered cs = s := by
  rw [id?, lowered, isId_ofList_iff]
  split
  next h => simp [h]
  next h => exact iff_of_false (Option.some_ne_none s).symm fun hs => h hs.1

theorem isVersion_iff {cs : List Char} :
    isVersion cs = true ↔ IsVersion cs ∨ IsLoudVersion cs := by
  have hread : isVersion cs = true ↔
      (cs.length = 2 ∧ ∀ c ∈ cs, c.toLower ∈ Hex.alphabet) ∧ cs ≠ ['f', 'f'] := by
    simp only [isVersion, Bool.and_eq_true, decide_eq_true_eq, List.all_eq_true, Hex.isDigit_iff,
      bne_iff_ne]
  rw [hread]
  constructor
  · rintro ⟨⟨hlength, hdigits⟩, hne⟩
    by_cases hlower : cs.map Char.toLower = ['f', 'f']
    · exact .inr ⟨hlower, hne⟩
    · exact .inl ⟨hlength, hdigits, hlower⟩
  · rintro (h | h)
    · refine ⟨⟨h.length, h.digits⟩, ?_⟩
      rintro rfl
      exact h.allowed rfl
    · have hlength := congrArg List.length h.forbidden
      refine ⟨⟨by simpa using hlength, fun c hc => ?_⟩, h.loud⟩
      have hmem : c.toLower ∈ ['f', 'f'] := h.forbidden ▸ List.mem_map_of_mem hc
      have hf : c.toLower = 'f' := by simpa using hmem
      rw [hf]
      decide

theorem not_isFlags_signed (c : Char) (n : Nat) : ¬ IsFlags ['+', c] n := by
  intro h
  have hnumber : Hex.number? ['+', c] = some n := Hex.number?_eq_some_iff.2 h
  cases hnumber

theorem IsSignedFlags.not_isFlags {cs : List Char} {n m : Nat} (h : IsSignedFlags cs n) :
    ¬ IsFlags cs m := by
  obtain ⟨c, rfl, -⟩ := h
  exact not_isFlags_signed c m

theorem flags?_eq_some_iff {cs : List Char} {n : Nat} :
    flags? cs = some n ↔ IsFlags cs n ∨ IsSignedFlags cs n := by
  unfold flags?
  split
  next d =>
    have hone : Hex.number? [d] = Hex.digit? d := by
      cases hd : Hex.digit? d <;> simp [Hex.number?, hd]
    rw [← hone, Hex.number?_eq_some_iff]
    constructor
    · rintro ⟨hlt, hd⟩
      exact .inr ⟨d, rfl, hlt, hd⟩
    · rintro (h | ⟨c, hc, hlt, hd⟩)
      · exact absurd h (not_isFlags_signed d n)
      · cases hc
        exact ⟨hlt, hd⟩
  next a b hsign =>
    have hunsigned : ¬ IsSignedFlags [a, b] n := by
      rintro ⟨c, hc, -⟩
      cases hc
      exact hsign rfl
    rw [Hex.number?_eq_some_iff, or_iff_left hunsigned]
    rfl
  next hsign hpair =>
    refine iff_of_false (Option.some_ne_none n).symm ?_
    rintro (h | ⟨c, rfl, -⟩)
    · have hlength : cs.length = 2 := by simpa [Hex.length_digits] using congrArg List.length h.2
      obtain ⟨a, b, rfl⟩ := List.length_eq_two.1 hlength
      exact hpair a b rfl
    · exact hsign c rfl

/-! The text as a whole. -/

theorem hyphen_notMem_of_lowered {cs : List Char} (h : '-' ∉ cs.map Char.toLower) : '-' ∉ cs :=
  fun hmem => h (List.mem_map.2 ⟨'-', hmem, by decide⟩)

theorem hyphen_notMem_version {cs : List Char} (h : isVersion cs = true) : '-' ∉ cs := by
  intro hmem
  simp only [isVersion, Bool.and_eq_true, List.all_eq_true] at h
  exact absurd (h.1.2 _ hmem) (by decide)

theorem hyphen_notMem_flags {cs : List Char} {n : Nat} (h : flags? cs = some n) : '-' ∉ cs := by
  apply hyphen_notMem_of_lowered
  rcases flags?_eq_some_iff.1 h with h | ⟨c, rfl, -, hc⟩
  · rw [h.2]
    exact Hex.hyphen_notMem_digits 2 n
  · rw [List.map_cons, List.map_singleton, hc, List.mem_cons, not_or]
    exact ⟨by decide, Hex.hyphen_notMem_digits 1 n⟩

theorem IsId.hyphen_notMem_of_lowered {length : Nat} {cs : List Char} (h : IsId length (lowered cs)) :
    '-' ∉ cs := by
  have hmem := h.hyphen_notMem
  rw [lowered, String.toList_ofList] at hmem
  exact Context.hyphen_notMem_of_lowered hmem

theorem exists_pieces_of_laid {Version : List Char → Prop} {Flags : List Char → Nat → Prop}
    (hv : ∀ cs, Version cs → isVersion cs = true) (hf : ∀ cs n, Flags cs n → flags? cs = some n)
    {cs : List Char} {t : Trace} (h : Laid Version Flags cs t) :
    ∃ version trace span flags more n, Version version ∧ Flags flags n ∧
      Text.pieces '-' cs = version :: trace :: span :: flags :: more ∧
      IsId 32 (lowered trace) ∧ IsId 16 (lowered span) ∧
      t = ⟨lowered trace, lowered span, n.testBit 0⟩ := by
  obtain ⟨hversion, htrace, hspan, hflags, hrest⟩ := h
  rename_i version trace span flags rest n
  have hlast := hyphen_notMem_flags (hf _ _ hflags)
  obtain ⟨more, hmore⟩ : ∃ more, Text.pieces '-' (flags ++ rest) = flags :: more := by
    rcases hrest with rfl | ⟨more, rfl⟩
    · exact ⟨[], by rw [List.append_nil, Text.pieces_of_notMem hlast]⟩
    · exact ⟨_, Text.pieces_append_cons hlast more⟩
  refine ⟨version, trace, span, flags, more, n, hversion, hflags, ?_, htrace, hspan, rfl⟩
  rw [Text.pieces_append_cons (hyphen_notMem_version (hv _ hversion)),
    Text.pieces_append_cons htrace.hyphen_notMem_of_lowered,
    Text.pieces_append_cons hspan.hyphen_notMem_of_lowered, hmore]

theorem laid_of_pieces {Version : List Char → Prop} {Flags : List Char → Nat → Prop}
    {cs version trace span flags : List Char} {more : List (List Char)} {n : Nat}
    (h : Text.pieces '-' cs = version :: trace :: span :: flags :: more)
    (hversion : Version version) (htrace : IsId 32 (lowered trace)) (hspan : IsId 16 (lowered span))
    (hflags : Flags flags n) :
    Laid Version Flags cs ⟨lowered trace, lowered span, n.testBit 0⟩ := by
  have hjoined (a b : List Char) (rest : List (List Char)) :
      ['-'].intercalate (a :: b :: rest) = a ++ '-' :: ['-'].intercalate (b :: rest) := by
    rw [List.intercalate_cons_cons, List.append_assoc, List.singleton_append]
  obtain ⟨rest, hrest, hlast⟩ : ∃ rest, (rest = [] ∨ ∃ ds, rest = '-' :: ds) ∧
      ['-'].intercalate (flags :: more) = flags ++ rest := by
    cases more with
    | nil => exact ⟨[], .inl rfl, by simp⟩
    | cons p ps => exact ⟨_, .inr ⟨_, rfl⟩, hjoined flags p ps⟩
  have hback := Text.intercalate_pieces '-' cs
  rw [h, hjoined, hjoined, hjoined, hlast] at hback
  rw [← hback]
  exact .intro hversion htrace hspan hflags hrest

theorem Laid.imp {Version Version' : List Char → Prop} {Flags Flags' : List Char → Nat → Prop}
    (hv : ∀ cs, Version cs → Version' cs) (hf : ∀ cs n, Flags cs n → Flags' cs n)
    {cs : List Char} {t : Trace} (h : Laid Version Flags cs t) : Laid Version' Flags' cs t := by
  obtain ⟨hversion, htrace, hspan, hflags, hrest⟩ := h
  exact .intro (hv _ hversion) htrace hspan (hf _ _ hflags) hrest

/-- What is read, said field by field. -/
theorem trace?_eq_some_iff_laid {s : String} {t : Trace} :
    trace? s = some t ↔
      Laid (isVersion · = true) (fun cs n => flags? cs = some n) (Text.trim s.toList) t := by
  constructor
  · intro h
    unfold trace? at h
    split at h
    next version trace span flags more hpieces =>
      split at h
      next hversion =>
        obtain ⟨_, htrace, h⟩ := Option.bind_eq_some_iff.1 h
        obtain ⟨_, hspan, h⟩ := Option.bind_eq_some_iff.1 h
        obtain ⟨n, hflags, rfl⟩ := Option.map_eq_some_iff.1 h
        obtain ⟨htraceId, rfl⟩ := id?_eq_some_iff.1 htrace
        obtain ⟨hspanId, rfl⟩ := id?_eq_some_iff.1 hspan
        rw [← Nat.testBit_zero]
        exact laid_of_pieces hpieces hversion htraceId hspanId hflags
      next => cases h
    next => cases h
  · intro h
    obtain ⟨version, trace, span, flags, more, n, hversion, hflags, hpieces, htrace, hspan, rfl⟩ :=
      exists_pieces_of_laid (fun _ => id) (fun _ _ => id) h
    rw [trace?, hpieces]
    simp only [if_pos hversion, id?_eq_some_iff.2 ⟨htrace, rfl⟩, id?_eq_some_iff.2 ⟨hspan, rfl⟩,
      hflags, Option.bind_some, Option.map_some, Nat.testBit_zero]

theorem laid_read_iff {cs : List Char} {t : Trace} :
    Laid (isVersion · = true) (fun cs n => flags? cs = some n) cs t ↔
      Laid IsVersion IsFlags cs t ∨
        Laid IsLoudVersion (fun cs n => IsFlags cs n ∨ IsSignedFlags cs n) cs t ∨
          Laid IsVersion IsSignedFlags cs t := by
  constructor
  · rintro ⟨hversion, htrace, hspan, hflags, hrest⟩
    have hflags := flags?_eq_some_iff.1 hflags
    rcases isVersion_iff.1 hversion with hversion | hloud
    · rcases hflags with hflags | hsigned
      · exact .inl (.intro hversion htrace hspan hflags hrest)
      · exact .inr (.inr (.intro hversion htrace hspan hsigned hrest))
    · exact .inr (.inl (.intro hloud htrace hspan hflags hrest))
  · rintro (h | h | h)
    · exact h.imp (fun _ hv => isVersion_iff.2 (.inl hv)) fun _ _ hf => flags?_eq_some_iff.2 (.inl hf)
    · exact h.imp (fun _ hv => isVersion_iff.2 (.inr hv)) fun _ _ => flags?_eq_some_iff.2
    · exact h.imp (fun _ hv => isVersion_iff.2 (.inl hv)) fun _ _ hf => flags?_eq_some_iff.2 (.inr hf)

theorem Misspelt.not_spelt {s : String} {t t' : Trace} (h : Misspelt s t) : ¬ Spelt s t' := by
  intro hspelt
  have hv (cs : List Char) (hv : IsVersion cs) : isVersion cs = true := isVersion_iff.2 (.inl hv)
  have hf (cs : List Char) (n : Nat) (hf : IsFlags cs n) : flags? cs = some n :=
    flags?_eq_some_iff.2 (.inl hf)
  obtain ⟨_, _, _, _, _, _, hversion, hflags, hpieces, -⟩ := exists_pieces_of_laid hv hf hspelt
  rcases h with h | h
  · obtain ⟨_, _, _, _, _, _, hloud, -, hpieces', -⟩ :=
      exists_pieces_of_laid (fun _ hv => isVersion_iff.2 (.inr hv)) (fun _ _ => flags?_eq_some_iff.2) h
    rw [hpieces] at hpieces'
    cases hpieces'
    exact hversion.allowed hloud.forbidden
  · obtain ⟨_, _, _, _, _, _, -, hsigned, hpieces', -⟩ :=
      exists_pieces_of_laid hv (fun _ _ hf => flags?_eq_some_iff.2 (.inr hf)) h
    rw [hpieces] at hpieces'
    cases hpieces'
    exact hsigned.not_isFlags hflags

/-- What is read are the texts of the grammar and those that are misspelt. So the grammar decides about a
text just when the text is not misspelt. -/
theorem trace_exact (s : String) :
    (∀ t, trace? s = some t ↔ Spelt s t ∨ Misspelt s t) ∧
      ((∀ t, trace? s = some t ↔ Spelt s t) ↔ ∀ t, ¬ Misspelt s t) := by
  have hread (t : Trace) : trace? s = some t ↔ Spelt s t ∨ Misspelt s t :=
    trace?_eq_some_iff_laid.trans laid_read_iff
  refine ⟨hread, fun h t hmis => ?_, fun h t => ?_⟩
  · exact hmis.not_spelt ((h t).1 ((hread t).2 (.inr hmis)))
  · rw [hread, or_iff_left (h t)]

/-- A sign in the flags and a version in capitals are let pass, although the grammar has neither. -/
theorem misspelt_traces_read :
    let signed := "00-4bf92f3577b34da6a3ce929d0e0e4736-00f067aa0ba902b7-+1"
    let loud := "FF-4bf92f3577b34da6a3ce929d0e0e4736-00f067aa0ba902b7-01"
    let trace : Trace := ⟨"4bf92f3577b34da6a3ce929d0e0e4736", "00f067aa0ba902b7", true⟩
    trace? signed = some trace ∧ ¬ Spelt signed trace ∧
      trace? loud = some trace ∧ ¬ Spelt loud trace := by
  intro signed loud trace
  have htrace : IsId 32 (lowered trace.traceId.toList) := isId_ofList_iff.2 (by decide)
  have hspan : IsId 16 (lowered trace.spanId.toList) := isId_ofList_iff.2 (by decide)
  have hsigned : ∃ t, Misspelt signed t := by
    have hdigits : ∀ c ∈ ['0', '0'], c.toLower ∈ Hex.alphabet :=
      List.forall_mem_cons.2 ⟨by decide, List.forall_mem_singleton.2 (by decide)⟩
    have hversion : IsVersion ['0', '0'] := ⟨rfl, hdigits, by decide⟩
    have hflags : IsSignedFlags ['+', '1'] 1 := ⟨'1', rfl, by decide, by decide⟩
    have hpieces : Text.pieces '-' (Text.trim signed.toList) =
        [['0', '0'], trace.traceId.toList, trace.spanId.toList, ['+', '1']] := by decide
    exact ⟨_, .inr (laid_of_pieces hpieces hversion htrace hspan hflags)⟩
  have hloud : ∃ t, Misspelt loud t := by
    have hversion : IsLoudVersion ['F', 'F'] := ⟨by decide, by decide⟩
    have hflags : IsFlags ['0', '1'] 1 := ⟨by decide, by decide⟩
    have hpieces : Text.pieces '-' (Text.trim loud.toList) =
        [['F', 'F'], trace.traceId.toList, trace.spanId.toList, ['0', '1']] := by decide
    exact ⟨_, .inl (laid_of_pieces hpieces hversion htrace hspan (.inl hflags))⟩
  obtain ⟨_, hsigned⟩ := hsigned
  obtain ⟨_, hloud⟩ := hloud
  exact ⟨by decide, hsigned.not_spelt, by decide, hloud.not_spelt⟩

end CourierDispatch.Context
