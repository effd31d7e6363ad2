import CourierDispatch.Proofs.Json.Text
import CourierDispatch.Proofs.Via

/-!
# Texts that stop short

Going over the compact text of a value inside a container, a scanner is unfinished in front of each of its
characters. A number does not say where it ends, so the part in front of a cut may be a number too. It is
not refused if the whole number is not, and then the container is still open. For the same reason a value
is followed here by the byte that ends it.
-/

namespace CourierDispatch

open Value Json.Numeral

/-- A consumer that takes the first token of a value like a builder. -/
structure Awaits {σ : Type} [Consumer σ] (host : Builder → σ) (place : Place) (c : σ) : Prop where
  accept : ∀ t, t ≠ .arrayEnd →
    Consumer.accept c t = ((Builder.value place).accept t).map host
  skims : Consumer.skims c = false

namespace Awaits

variable {σ : Type} [Consumer σ] {host : Builder → σ} {place : Place} {c : σ} {t : Token} {v : Value}

theorem of_hosts (h : Hosts host) (place : Place) : Awaits host place (host (.value place)) where
  accept t _ := h.accept (.value place) t rfl
  skims := h.skims (.value place) rfl

theorem accept_scalar (h : Awaits host place c) (ht : Builder.scalar? t = some v) :
    Consumer.accept c t = .ok (host (Builder.put v place)) := by
  rw [h.accept t (by rintro rfl; cases ht), Hosts.acceptValue_scalar place ht]
  rfl

end Awaits

namespace Json

/-- A byte that ends a value in a container. -/
def EndsValue (b : UInt8) : Prop := b = 0x2C ∨ b = 0x5D ∨ b = 0x7D

theorem Numeral.exists_scalar {n : Numeral} {t : Token} (h : n.token? = some t) :
    ∃ v, Builder.scalar? t = some v := by
  unfold token? at h
  split at h
  · split_ifs at h <;> cases h <;> exact ⟨_, rfl⟩
  · obtain ⟨x, -, rfl⟩ := Option.map_eq_some_iff.1 h
    exact ⟨_, rfl⟩

theorem Numeral.Draft.more?_eq_none {b : UInt8} (hb : EndsValue b) (d : Draft) :
    d.more? (asChar b) = none := by
  by_contra hsome
  obtain ⟨d', hd'⟩ := Option.ne_none_iff_exists'.1 hsome
  have hfitting := fitting_of_more? hd'
  rcases hb with rfl | rfl | rfl <;> exact absurd hfitting (by decide)

namespace Scanner

variable {σ : Type} [Consumer σ]

/-- If the text ended here, it would stop short. -/
def Unfinished (s : Scanner σ) : Prop := s.finish = .error .cutShort

variable {f : Frame} {frames : List Frame} {c c' : σ} {s s' : Scanner σ} {b : UInt8}

/-! Words and strings. -/

theorem via_word {t : Token} (ht : Consumer.accept c t = .ok c') {w : Char} {rest : List Char}
    (h : ∀ x ∈ w :: rest, x.toNat < 0x80) :
    Via step Unfinished ⟨.word (w :: rest) t, frames, c⟩ (Utf8.encode (w :: rest))
      ⟨.delimiter, frames, c'⟩ := by
  induction rest generalizing w with
  | nil =>
      have hw : w.toNat < 0x80 := h w List.mem_cons_self
      rw [Utf8.encode_cons, Utf8.encodeChar_ascii hw]
      refine .single rfl ?_
      simp [step, asChar_toUInt8 hw, emit, ht]
  | cons x rest ih =>
      obtain ⟨hw, hrest⟩ := List.forall_mem_cons.1 h
      rw [Utf8.encode_cons, Utf8.encodeChar_ascii hw]
      refine .cons rfl ?_ (ih hrest)
      simp [step, asChar_toUInt8 hw]

theorem via_literal {t : Token} (ht : Consumer.accept c t = .ok c') {x w : Char} {rest : List Char}
    (h : ∀ y ∈ x :: w :: rest, y.toNat < 0x80)
    (hx : step ⟨.value, frames, c⟩ x.toNat.toUInt8 = .ok ⟨.word (w :: rest) t, frames, c⟩) :
    Via step Unfinished ⟨.value, frames, c⟩ (Utf8.encode (x :: w :: rest))
      ⟨.delimiter, frames, c'⟩ := by
  obtain ⟨hascii, hrest⟩ := List.forall_mem_cons.1 h
  rw [Utf8.encode_cons, Utf8.encodeChar_ascii hascii]
  exact .cons rfl hx (via_word ht hrest)

theorem via_quoted (isName : Bool) {q q' : Quoted} {bs : List UInt8} (h : q.absorb bs = some q') :
    Via step Unfinished ⟨.quoted isName q, frames, c⟩ bs ⟨.quoted isName q', frames, c⟩ := by
  induction bs generalizing q with
  | nil =>
      cases h
      exact .nil _
  | cons b bs ih =>
      rw [Quoted.absorb_cons] at h
      obtain ⟨mid, hmid, hrest⟩ := Option.bind_eq_some_iff.1 h
      exact .cons rfl (step_quoted hmid frames c) (ih hrest)

theorem via_quotes (isName : Bool) (s : String) {spot : Spot} (hmid : Unfinished ⟨spot, frames, c⟩)
    (hopen : step ⟨spot, frames, c⟩ 0x22 =
      .ok ⟨.quoted isName { skim := Consumer.skims c }, frames, c⟩)
    (hskims : Consumer.skims c = false) (hs : Consumer.accept c (.text s) = .ok c') :
    Via step Unfinished ⟨spot, frames, c⟩ (Utf8.encode (quote s.toList))
      ⟨if isName then .colon else .delimiter, frames, c'⟩ := by
  obtain ⟨bs, content, hencode, habsorb, hbytes⟩ :=
    exists_quoted (quotes_quote s) (Consumer.skims c)
  have hclose : step ⟨.quoted isName ⟨Consumer.skims c, content, .none⟩, frames, c⟩ 0x22 =
      .ok ⟨if isName then .colon else .delimiter, frames, c'⟩ := by
    change endQuoted ⟨.quoted isName ⟨Consumer.skims c, content, .none⟩, frames, c⟩ isName
      (Consumer.skims c) content.reverse = _
    rw [endQuoted_eq isName hbytes _ rfl, manner.handScalar_of_accept hskims hs]
    rfl
  rw [hencode]
  exact .cons hmid hopen ((via_quoted isName habsorb).append (.single rfl hclose))

theorem via_name {spot : Spot} (hspot : spot = .name ∨ spot = .firstName) {k : String}
    (hskims : Consumer.skims c = false) (hk : Consumer.accept c (.text k) = .ok c') :
    Via step Unfinished ⟨spot, frames, c⟩ (Utf8.encode (quote k.toList) ++ [0x3A])
      ⟨.value, frames, c'⟩ := by
  have hmid : Unfinished ⟨spot, frames, c⟩ := by
    rcases hspot with rfl | rfl <;> rfl
  have hopen : step ⟨spot, frames, c⟩ 0x22 =
      .ok ⟨.quoted true { skim := Consumer.skims c }, frames, c⟩ := by
    rcases hspot with rfl | rfl <;> rfl
  exact (via_quotes true k hmid hopen hskims hk).append (.single rfl rfl)

theorem via_textMember {c'' : σ} {spot : Spot} (hspot : spot = .name ∨ spot = .firstName)
    {k s : String} (hskims : Consumer.skims c = false) (hk : Consumer.accept c (.text k) = .ok c')
    (hskims' : Consumer.skims c' = false) (hs : Consumer.accept c' (.text s) = .ok c'') :
    Via step Unfinished ⟨spot, .object :: frames, c⟩
      (Utf8.encode (quote k.toList) ++ [0x3A] ++ (Utf8.encode (quote s.toList) ++ [0x2C]))
      ⟨.name, .object :: frames, c''⟩ := by
  have htext : Via step Unfinished ⟨.value, .object :: frames, c'⟩ (Utf8.encode (quote s.toList))
      ⟨.delimiter, .object :: frames, c''⟩ := via_quotes false s rfl rfl hskims' hs
  exact (via_name hspot hskims hk).append (htext.append (.single rfl rfl))

/-! Numbers. -/

variable {host : Builder → σ} {place : Place}

theorem exists_endNumeral (hc : Awaits host place c) {d : Draft} {t : Token}
    (ht : d.numeral.token? = some t) (spot : Spot) (frames : List Frame) :
    ∃ v, endNumeral ⟨spot, frames, c⟩ false d = .ok ⟨.delimiter, frames, host (Builder.put v place)⟩ := by
  obtain ⟨v, hv⟩ := Numeral.exists_scalar ht
  refine ⟨v, ?_⟩
  simp [endNumeral, ht, emit, hc.accept_scalar hv]

/-- A numeral that goes on to one that is not too large is unfinished. -/
theorem unfinished_numeral (hc : Awaits host place c) {d d' : Draft} {cs : List Char}
    (hd : d.Consistent) (h : d.absorbs cs = some d') (hslim : d'.numeral.Slim)
    (htoken : d'.numeral.token?.isSome = true) (f : Frame) (frames : List Frame) :
    Unfinished ⟨.numeral false d, f :: frames, c⟩ := by
  unfold Unfinished finish
  by_cases hcomplete : d.complete = true
  · obtain ⟨t, ht⟩ :=
      Option.isSome_iff_exists.1 (Draft.isSome_token?_of_absorbs hd hcomplete h hslim htoken)
    obtain ⟨v, hv⟩ := exists_endNumeral hc ht (.numeral false d) (f :: frames)
    simp [hcomplete, hv]
  · simp [hcomplete]

/-- Behind a number that is being read, no character of a number goes on with the container. -/
theorem delimit_fitting {x : Char} (hx : Fitting x) (s : Scanner σ) :
    s.delimit x = .error .illFormed := by
  unfold delimit
  rw [if_neg (by simp [isSpace_fitting hx])]
  split
  all_goals first | rfl | exact absurd hx (by decide)

/-- A run over characters of a number and one more byte keeps to one numeral until the last byte. -/
theorem exists_absorbs {cs : List Char} (hcs : ∀ x ∈ cs, Fitting x) {d : Draft}
    (h : scan ⟨.numeral false d, frames, c⟩ (Utf8.encode cs ++ [b]) = .ok s') :
    ∃ d', d.absorbs cs = some d' ∧ step ⟨.numeral false d', frames, c⟩ b = .ok s' := by
  induction cs generalizing d with
  | nil =>
      obtain ⟨m, hm, hnil⟩ := exists_of_foldlM_cons h
      cases hnil
      exact ⟨d, rfl, hm⟩
  | cons x cs ih =>
      obtain ⟨hx, hcs⟩ := List.forall_mem_cons.1 hcs
      have hascii := hx.toNat_lt
      rw [Utf8.encode_cons, Utf8.encodeChar_ascii hascii] at h
      obtain ⟨m, hm, hrest⟩ := exists_of_foldlM_cons h
      cases hmore : d.more? x with
      | some mid =>
          cases (step_numeral hascii hmore frames c).symm.trans hm
          obtain ⟨d', hd', hlast⟩ := ih hcs hrest
          exact ⟨d', by rw [Draft.absorbs_cons, hmore]; exact hd', hlast⟩
      | none =>
          -- the numeral would be over, and its container would go on with this character
          exfalso
          unfold Draft.more? at hmore
          simp only [step, asChar_toUInt8 hascii] at hm
          split at hm
          next heq => simp [heq] at hmore
          next => cases hm
          next =>
            split at hm
            next => cases (delimit_fitting hx _).symm.trans hm
            next => cases hm

/-- The byte behind a number ends it, as a number that is not too large. -/
theorem exists_token_of_step {d : Draft} (hb : EndsValue b)
    (h : step ⟨.numeral false d, frames, c⟩ b = .ok s') :
    ∃ t s, d.numeral.token? = some t ∧
      endNumeral ⟨.numeral false d, frames, c⟩ false d = .ok s ∧ s.delimit (asChar b) = .ok s' := by
  have hmore := Draft.more?_eq_none hb d
  unfold Draft.more? at hmore
  simp only [step] at h
  split at h
  next heq => simp [heq] at hmore
  next => cases h
  next =>
    cases htoken : d.numeral.token? with
    | none => simp [endNumeral, htoken] at h
    | some t =>
        split at h
        next s hs => exact ⟨t, s, rfl, hs, h⟩
        next => cases h

theorem via_absorbs (hc : Awaits host place c) {d d' : Draft} {cs : List Char}
    (hcs : ∀ x ∈ cs, Fitting x) (hd : d.Consistent) (h : d.absorbs cs = some d')
    (hslim : d'.numeral.Slim) (htoken : d'.numeral.token?.isSome = true) :
    Via step Unfinished ⟨.numeral false d, f :: frames, c⟩ (Utf8.encode cs)
      ⟨.numeral false d', f :: frames, c⟩ := by
  induction cs generalizing d with
  | nil =>
      cases h
      exact .nil _
  | cons x cs ih =>
      obtain ⟨hx, hcs⟩ := List.forall_mem_cons.1 hcs
      have hmid := unfinished_numeral hc hd h hslim htoken f frames
      rw [Draft.absorbs_cons] at h
      obtain ⟨mid, hmore, hrest⟩ := Option.bind_eq_some_iff.1 h
      rw [Utf8.encode_cons, Utf8.encodeChar_ascii hx.toNat_lt]
      exact .cons hmid (step_numeral hx.toNat_lt hmore _ c)
        (ih hcs (hd.next (Draft.next_of_more? hmore)) hrest)

theorem exists_ofChar? {x : Char} (hx : Fitting x)
    (h : step ⟨.value, frames, c⟩ x.toNat.toUInt8 = .ok s') :
    ∃ d, Draft.ofChar? x = some d ∧ s' = ⟨.numeral (Consumer.skims c) d, frames, c⟩ := by
  simp only [step, asChar_toUInt8 hx.toNat_lt, isSpace_fitting hx, Bool.false_eq_true, if_false] at h
  rw [beginValue_fitting hx] at h
  split at h
  next d hd =>
    cases h
    exact ⟨d, hd, rfl⟩
  next => cases h

theorem via_number (hc : Awaits host place c) {n : Number} (hn : n.fits) (hb : EndsValue b)
    (h : scan ⟨.value, f :: frames, c⟩ (Utf8.encode (numberText n) ++ [b]) = .ok s') :
    Via step Unfinished ⟨.value, f :: frames, c⟩ (Utf8.encode (numberText n) ++ [b]) s' ∧
      ∃ v, delimit ⟨.delimiter, f :: frames, host (Builder.put v place)⟩ (asChar b) = .ok s' := by
  have hfitting := fitting_numberText hn
  obtain ⟨x, cs, htext⟩ := List.exists_cons_of_ne_nil (numberText_ne_nil hn)
  rw [htext] at h hfitting ⊢
  obtain ⟨hx, hcs⟩ := List.forall_mem_cons.1 hfitting
  rw [Utf8.encode_cons, Utf8.encodeChar_ascii hx.toNat_lt] at h ⊢
  obtain ⟨m, hfirst, hrest⟩ := exists_of_foldlM_cons h
  obtain ⟨d, hd, rfl⟩ := exists_ofChar? hx hfirst
  rw [hc.skims] at hfirst hrest
  obtain ⟨d', hd', hlast⟩ := exists_absorbs hcs hrest
  obtain ⟨t, s, ht, hs, hdelimit⟩ := exists_token_of_step hb hlast
  obtain ⟨v, hv⟩ := exists_endNumeral hc ht (.numeral false d') (f :: frames)
  cases hv.symm.trans hs
  have hconsistent := Draft.consistent_ofChar? hd
  have hslim := slim_numberText hn htext hd hd'
  have htoken : d'.numeral.token?.isSome = true := by rw [ht]; rfl
  have hend : Unfinished ⟨.numeral false d', f :: frames, c⟩ :=
    unfinished_numeral hc (hconsistent.absorbs hd') (Draft.absorbs_nil d') hslim htoken f frames
  have hvia := (via_absorbs hc hcs hconsistent hd' hslim htoken).append (.single hend hlast)
  exact ⟨.cons rfl hfirst hvia, v, hdelimit⟩

/-! Containers. -/

theorem via_delimited {bs : List UInt8}
    (hvia : Via step Unfinished s bs ⟨.delimiter, f :: frames, c⟩) (h : scan s (bs ++ [b]) = .ok s') :
    Via step Unfinished s (bs ++ [b]) s' ∧
      delimit ⟨.delimiter, f :: frames, c⟩ (asChar b) = .ok s' := by
  obtain ⟨m, hm, hlast⟩ := exists_of_foldlM_append h
  cases hvia.foldlM_eq.symm.trans hm
  obtain ⟨m', hstep, hnil⟩ := exists_of_foldlM_cons hlast
  cases hnil
  exact ⟨hvia.append (.single rfl hstep), hstep⟩

theorem eq_of_openFrame (hc : Awaits host place c) {inner : Builder}
    (hinner : (Builder.value place).accept f.opening = .ok inner) {spot : Spot}
    (h : openFrame ⟨.value, frames, c⟩ f spot = .ok s') : s' = ⟨spot, f :: frames, host inner⟩ := by
  have hopening : f.opening ≠ .arrayEnd := by cases f <;> simp [Frame.opening]
  have haccept : Consumer.accept c f.opening = .ok (host inner) := by
    rw [hc.accept _ hopening, hinner]
    rfl
  unfold openFrame at h
  split at h
  · cases h
  · simp only [emit, haccept] at h
    cases h
    rfl

theorem closeFrame_eq (hosts : Hosts host) {inner outer : Builder} (hinner : inner.result? = none)
    (h : inner.accept f.closing = .ok outer) (spot : Spot) :
    closeFrame ⟨spot, f :: frames, host inner⟩ f = .ok ⟨.delimiter, frames, host outer⟩ := by
  rw [closeFrame, emit_eq, hosts.hand_eq manner hinner h]
  rfl

/-- A container, if its inside is left to the host of a builder. -/
theorem via_container (hc : Awaits host place c) (g : Frame) {inner : Builder}
    (hinner : (Builder.value place).accept g.opening = .ok inner) {spot : Spot} {left : UInt8}
    (hopen : step ⟨.value, f :: frames, c⟩ left = openFrame ⟨.value, f :: frames, c⟩ g spot)
    {bs : List UInt8}
    (hbody : ∀ s', scan ⟨spot, g :: f :: frames, host inner⟩ bs = .ok s' →
      Via step Unfinished ⟨spot, g :: f :: frames, host inner⟩ bs s' ∧
        ∃ v, s' = ⟨.delimiter, f :: frames, host (Builder.put v place)⟩)
    (h : scan ⟨.value, f :: frames, c⟩ (left :: bs ++ [b]) = .ok s') :
    Via step Unfinished ⟨.value, f :: frames, c⟩ (left :: bs ++ [b]) s' ∧
      ∃ v, delimit ⟨.delimiter, f :: frames, host (Builder.put v place)⟩ (asChar b) = .ok s' := by
  obtain ⟨m, hm, -⟩ := exists_of_foldlM_append h
  obtain ⟨m', hstep, hrest⟩ := exists_of_foldlM_cons hm
  cases eq_of_openFrame hc hinner (hopen.symm.trans hstep)
  obtain ⟨hvia, v, rfl⟩ := hbody m hrest
  have hmid : Unfinished ⟨.value, f :: frames, c⟩ := rfl
  obtain ⟨hall, hdelimit⟩ := via_delimited (.cons hmid hstep hvia) h
  exact ⟨hall, v, hdelimit⟩

theorem via_empty (hosts : Hosts host) (g : Frame) {inner : Builder} (hinner : inner.result? = none)
    {v : Value} (hv : inner.accept g.closing = .ok (Builder.put v place)) {spot : Spot}
    (hmid : Unfinished ⟨spot, g :: frames, host inner⟩) {right : UInt8}
    (hclose : step ⟨spot, g :: frames, host inner⟩ right = closeFrame ⟨spot, g :: frames, host inner⟩ g)
    {s' : Scanner σ} (h : scan ⟨spot, g :: frames, host inner⟩ [right] = .ok s') :
    Via step Unfinished ⟨spot, g :: frames, host inner⟩ [right] s' ∧
      ∃ v, s' = ⟨.delimiter, frames, host (Builder.put v place)⟩ := by
  obtain ⟨m, hstep, hnil⟩ := exists_of_foldlM_cons h
  cases hnil
  rw [closeFrame_eq hosts hinner hv] at hclose
  exact ⟨.single hmid hstep, v, Except.ok.inj (hstep.symm.trans hclose)⟩

theorem encode_items (v w : Value) (ws : List Value) :
    Utf8.encode (commaSeparated (itemTexts (v :: w :: ws))) =
      Utf8.encode (text v) ++ [0x2C] ++ Utf8.encode (commaSeparated (itemTexts (w :: ws))) := by
  change Utf8.encode (text v ++ ',' :: commaSeparated (itemTexts (w :: ws))) = _
  rw [Utf8.encode_append, List.append_assoc]
  rfl

theorem exists_firstItem {v : Value} (hv : v.WellFormed) (vs : List Value) :
    ∃ x bs, Utf8.encode (commaSeparated (itemTexts (v :: vs))) = x :: bs ∧
      ∀ (frames : List Frame) (c : σ), step ⟨.firstItem, frames, c⟩ x = step ⟨.value, frames, c⟩ x := by
  have hfits (n : Number) (hn : v = .number n) : n.fits := by
    subst hn
    exact hv
  obtain ⟨x, cs, htext, hx, hspace, hend⟩ := exists_eq_cons_of_written hfits (written_text v)
  have hstep := step_firstItem (σ := σ) hx hspace hend
  have hbytes : Utf8.encode (text v) = x.toNat.toUInt8 :: Utf8.encode cs := by
    rw [htext, Utf8.encode_cons, Utf8.encodeChar_ascii hx]
    rfl
  cases vs with
  | nil => exact ⟨_, _, hbytes, hstep⟩
  | cons w ws =>
      refine ⟨_, Utf8.encode cs ++ [0x2C] ++ Utf8.encode (commaSeparated (itemTexts (w :: ws))), ?_,
        hstep⟩
      rw [encode_items, hbytes]
      rfl

theorem encode_member (k : String) (v : Value) :
    Utf8.encode (quote k.toList ++ ':' :: text v) =
      Utf8.encode (quote k.toList) ++ [0x3A] ++ Utf8.encode (text v) := by
  rw [Utf8.encode_append, List.append_assoc]
  rfl

theorem encode_lastMember (k : String) (v : Value) :
    Utf8.encode (commaSeparated (memberTexts [(k, v)])) =
      Utf8.encode (quote k.toList) ++ [0x3A] ++ Utf8.encode (text v) :=
  encode_member k v

theorem encode_members (k : String) (v : Value) (m : String × Value) (ms : List (String × Value)) :
    Utf8.encode (commaSeparated (memberTexts ((k, v) :: m :: ms))) =
      Utf8.encode (quote k.toList) ++ [0x3A] ++ (Utf8.encode (text v) ++ [0x2C] ++
        Utf8.encode (commaSeparated (memberTexts (m :: ms)))) := by
  change Utf8.encode ((quote k.toList ++ ':' :: text v) ++ ',' :: commaSeparated (memberTexts (m :: ms))) = _
  rw [Utf8.encode_append, encode_member]
  simp only [List.append_assoc]
  rfl

theorem encode_array (items : List Value) :
    Utf8.encode (text (.array items)) =
      0x5B :: (Utf8.encode (commaSeparated (itemTexts items)) ++ [0x5D]) := by
  change Utf8.encode ('[' :: (commaSeparated (itemTexts items) ++ [']'])) = _
  rw [Utf8.encode_cons, Utf8.encode_append]
  rfl

theorem encode_object (members : List (String × Value)) :
    Utf8.encode (text (.object members)) =
      0x7B :: (Utf8.encode (commaSeparated (memberTexts members)) ++ [0x7D]) := by
  change Utf8.encode ('\x7b' :: (commaSeparated (memberTexts members) ++ ['\x7d'])) = _
  rw [Utf8.encode_cons, Utf8.encode_append]
  rfl

mutual
/-- A value inside a container and the byte that ends it there. -/
theorem via_value (hosts : Hosts host) (v : Value) (hv : v.WellFormed) {place : Place} {c : σ}
    (hc : Awaits host place c) {f : Frame} {frames : List Frame} {b : UInt8} (hb : EndsValue b)
    {s' : Scanner σ}
    (h : scan ⟨.value, f :: frames, c⟩ (Utf8.encode (text v) ++ [b]) = .ok s') :
    Via step Unfinished ⟨.value, f :: frames, c⟩ (Utf8.encode (text v) ++ [b]) s' ∧
      ∃ v', delimit ⟨.delimiter, f :: frames, host (Builder.put v' place)⟩ (asChar b) = .ok s' := by
  match v, hv with
  | .null, _ =>
      have hvia : Via step Unfinished ⟨.value, f :: frames, c⟩ (Utf8.encode ['n', 'u', 'l', 'l'])
          ⟨.delimiter, f :: frames, host (Builder.put .null place)⟩ :=
        via_literal (hc.accept_scalar rfl) (by simp) rfl
      exact (via_delimited hvia h).imp_right fun hdelimit => ⟨_, hdelimit⟩
  | .bool true, _ =>
      have hvia : Via step Unfinished ⟨.value, f :: frames, c⟩ (Utf8.encode ['t', 'r', 'u', 'e'])
          ⟨.delimiter, f :: frames, host (Builder.put (.bool true) place)⟩ :=
        via_literal (hc.accept_scalar rfl) (by simp) rfl
      exact (via_delimited hvia h).imp_right fun hdelimit => ⟨_, hdelimit⟩
  | .bool false, _ =>
      have hvia : Via step Unfinished ⟨.value, f :: frames, c⟩
          (Utf8.encode ['f', 'a', 'l', 's', 'e'])
          ⟨.delimiter, f :: frames, host (Builder.put (.bool false) place)⟩ :=
        via_literal (hc.accept_scalar rfl) (by simp) rfl
      exact (via_delimited hvia h).imp_right fun hdelimit => ⟨_, hdelimit⟩
  | .number n, hn => exact via_number hc hn hb h
  | .string s, _ =>
      have hvia : Via step Unfinished ⟨.value, f :: frames, c⟩ (Utf8.encode (quote s.toList))
          ⟨.delimiter, f :: frames, host (Builder.put (.string s) place)⟩ :=
        via_quotes false s rfl rfl hc.skims (hc.accept_scalar rfl)
      exact (via_delimited hvia h).imp_right fun hdelimit => ⟨_, hdelimit⟩
  | .array [], _ =>
      have hmid : Unfinished ⟨.firstItem, .array :: f :: frames, host (.value (.item [] place))⟩ := rfl
      exact via_container hc .array rfl rfl
        (fun m hm => via_empty (v := .array []) hosts .array rfl rfl hmid rfl hm) h
  | .array (v :: vs), hv =>
      obtain ⟨x, bs, hbytes, hfirst⟩ := exists_firstItem (σ := σ) hv.1 vs
      rw [encode_array] at h ⊢
      refine via_container hc .array rfl rfl (fun m hm => ?_) h
      rw [hbytes] at hm ⊢
      have hscan : scan ⟨.value, .array :: f :: frames, host (.value (.item [] place))⟩
          (Utf8.encode (commaSeparated (itemTexts (v :: vs))) ++ [0x5D]) = .ok m := by
        rw [hbytes, ← hm, List.cons_append, scan_cons, scan_cons, hfirst]
      obtain ⟨hvia, hend⟩ := via_items hosts v vs hv hscan
      rw [hbytes] at hvia
      exact ⟨hvia.change_start rfl (hfirst _ _), hend⟩
  | .object [], _ =>
      have hmid : Unfinished ⟨.firstName, .object :: f :: frames, host (.name [] place)⟩ := rfl
      exact via_container hc .object rfl rfl
        (fun m hm => via_empty (v := .object []) hosts .object rfl rfl hmid rfl hm) h
  | .object ((k, v) :: ms), hv =>
      rw [encode_object] at h ⊢
      exact via_container hc .object rfl rfl
        (fun m hm => via_members hosts k v ms hv.2 hm (.inr rfl)) h
termination_by sizeOf v

theorem via_items (hosts : Hosts host) (v : Value) (vs : List Value)
    (hv : WellFormedItems (v :: vs)) {before : List Value} {place : Place} {frames : List Frame}
    {s' : Scanner σ}
    (h : scan ⟨.value, .array :: frames, host (.value (.item before place))⟩
      (Utf8.encode (commaSeparated (itemTexts (v :: vs))) ++ [0x5D]) = .ok s') :
    Via step Unfinished ⟨.value, .array :: frames, host (.value (.item before place))⟩
      (Utf8.encode (commaSeparated (itemTexts (v :: vs))) ++ [0x5D]) s' ∧
      ∃ v', s' = ⟨.delimiter, frames, host (Builder.put v' place)⟩ := by
  have hc := Awaits.of_hosts hosts (.item before place)
  match vs, hv, h with
  | [], hv, h =>
      obtain ⟨hvia, v', hdelimit⟩ := via_value hosts v hv.1 hc (.inr (.inl rfl)) h
      have hclose : delimit ⟨.delimiter, .array :: frames, host (.value (.item (v' :: before) place))⟩
          (asChar 0x5D) = .ok ⟨.delimiter, frames,
            host (Builder.put (.array (v' :: before).reverse) place)⟩ :=
        closeFrame_eq hosts rfl rfl _
      exact ⟨hvia, _, Except.ok.inj (hdelimit.symm.trans hclose)⟩
  | w :: ws, hv, h =>
      rw [encode_items, List.append_assoc] at h ⊢
      obtain ⟨m, hm, hrest⟩ := exists_of_foldlM_append h
      obtain ⟨hvia, v', hdelimit⟩ := via_value hosts v hv.1 hc (.inl rfl) hm
      have hcomma : delimit ⟨.delimiter, .array :: frames, host (.value (.item (v' :: before) place))⟩
          (asChar 0x2C) = .ok ⟨.value, .array :: frames, host (.value (.item (v' :: before) place))⟩ := by
        have hsated : Consumer.sated (host (.value (.item (v' :: before) place))) = false :=
          hosts.sated _ rfl
        change (if Consumer.sated _ then _ else _) = _
        rw [hsated]
        rfl
      cases hcomma.symm.trans hdelimit
      obtain ⟨hothers, hend⟩ := via_items hosts w ws hv.2 hrest
      exact ⟨hvia.append hothers, hend⟩
termination_by sizeOf (v :: vs)

theorem via_members (hosts : Hosts host) (k : String) (v : Value) (ms : List (String × Value))
    (hv : WellFormedMembers ((k, v) :: ms)) {before : List (String × Value)} {place : Place}
    {spot : Spot} {frames : List Frame} {s' : Scanner σ}
    (h : scan ⟨spot, .object :: frames, host (.name before place)⟩
      (Utf8.encode (commaSeparated (memberTexts ((k, v) :: ms))) ++ [0x7D]) = .ok s')
    (hspot : spot = .name ∨ spot = .firstName) :
    Via step Unfinished ⟨spot, .object :: frames, host (.name before place)⟩
      (Utf8.encode (commaSeparated (memberTexts ((k, v) :: ms))) ++ [0x7D]) s' ∧
      ∃ v', s' = ⟨.delimiter, frames, host (Builder.put v' place)⟩ := by
  have hc := Awaits.of_hosts hosts (.member before k place)
  have hk : Consumer.accept (host (.name before place)) (.text k) =
      .ok (host (.value (.member before k place))) := by
    rw [hosts.accept _ _ rfl]
    cases before <;> rfl
  have hname : Via step Unfinished ⟨spot, .object :: frames, host (.name before place)⟩
      (Utf8.encode (quote k.toList) ++ [0x3A])
      ⟨.value, .object :: frames, host (.value (.member before k place))⟩ :=
    via_name hspot (hosts.skims _ rfl) hk
  match ms, hv, h with
  | [], hv, h =>
      rw [encode_lastMember, List.append_assoc] at h ⊢
      obtain ⟨m, hm, hrest⟩ := exists_of_foldlM_append h
      cases hname.foldlM_eq.symm.trans hm
      obtain ⟨hvia, v', hdelimit⟩ := via_value hosts v hv.1 hc (.inr (.inr rfl)) hrest
      have hclose : delimit ⟨.delimiter, .object :: frames,
          host (.name (Keyed.insert k v' before) place)⟩ (asChar 0x7D) =
          .ok ⟨.delimiter, frames, host (Builder.put (.object (Keyed.insert k v' before)) place)⟩ :=
        closeFrame_eq hosts rfl rfl _
      exact ⟨hname.append hvia, _, Except.ok.inj (hdelimit.symm.trans hclose)⟩
  | (k', w) :: ms, hv, h =>
      rw [encode_members, List.append_assoc (Utf8.encode (quote k.toList) ++ [0x3A]),
        List.append_assoc (Utf8.encode (text v) ++ [0x2C])] at h ⊢
      obtain ⟨m, hm, hrest⟩ := exists_of_foldlM_append h
      cases hname.foldlM_eq.symm.trans hm
      obtain ⟨m, hm, hrest⟩ := exists_of_foldlM_append hrest
      obtain ⟨hvia, v', hdelimit⟩ := via_value hosts v hv.1 hc (.inl rfl) hm
      have hcomma : delimit ⟨.delimiter, .object :: frames,
          host (.name (Keyed.insert k v' before) place)⟩ (asChar 0x2C) =
          .ok ⟨.name, .object :: frames, host (.name (Keyed.insert k v' before) place)⟩ := rfl
      cases hcomma.symm.trans hdelimit
      obtain ⟨hothers, hend⟩ := via_members hosts k' w ms hv.2 hrest (.inl rfl)
      exact ⟨hname.append (hvia.append hothers), hend⟩
termination_by sizeOf ((k, v) :: ms)
end

end Scanner

end Json

end CourierDispatch
