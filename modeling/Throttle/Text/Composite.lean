import Throttle.Text.Blank

/-!
Composites: characters that stand for a base and a mark behind it, and the syllables of Korean, which
stand for their letters.
-/

namespace Throttle.Text

/-- Rows of a mark and, for each base that it goes with, the base and the composite. -/
def compositeRows : List (Nat × String) :=
  [(0x300, "aà eè iì oò uù üǜ nǹ еѐ иѝ ēḕ ōṑ wẁ âầ ăằ êề ôồ ơờ ưừ yỳ ἀἂ ἁἃ ἐἒ ἑἓ ἠἢ ἡἣ ἰἲ ἱἳ ὀὂ ὁὃ"),
    (0x300, "ὐὒ ὑὓ ὠὢ ὡὣ αὰ εὲ ηὴ ιὶ οὸ υὺ ωὼ ϊῒ ϋῢ"),
    (0x301, "aá eé ií oó uú yý cć lĺ nń rŕ sś zź üǘ gǵ åǻ æǽ øǿ ϊΐ αά εέ ηή ιί ϋΰ οό υύ ωώ гѓ кќ çḉ"),
    (0x301, "ēḗ ïḯ kḱ mḿ õṍ ōṓ pṕ ũṹ wẃ âấ ăắ êế ôố ơớ ưứ ἀἄ ἁἅ ἐἔ ἑἕ ἠἤ ἡἥ ἰἴ ἱἵ ὀὄ ὁὅ ὐὔ ὑὕ ὠὤ ὡὥ"),
    (0x302, "aâ eê iî oô uû cĉ gĝ hĥ jĵ sŝ wŵ yŷ zẑ ạậ ẹệ ọộ"),
    (0x303, "aã nñ oõ iĩ uũ vṽ âẫ ăẵ eẽ êễ ôỗ ơỡ ưữ yỹ"),
    (0x304, "aā eē iī oō uū üǖ äǟ ȧǡ æǣ ǫǭ öȫ õȭ ȯȱ yȳ иӣ уӯ gḡ ḷḹ ṛṝ αᾱ ιῑ υῡ"),
    (0x306, "aă eĕ gğ iĭ oŏ uŭ ий уў жӂ аӑ еӗ ȩḝ ạặ αᾰ ιῐ υῠ"),
    (0x307, "cċ eė gġ zż aȧ oȯ bḃ dḋ fḟ hḣ mṁ nṅ pṗ rṙ sṡ śṥ šṧ ṣṩ tṫ wẇ xẋ yẏ 𐗒𐗉 𐗚𐗤"),
    (0x308, "aä eë iï oö uü yÿ ιϊ υϋ её ії аӓ әӛ жӝ зӟ иӥ оӧ өӫ эӭ уӱ чӵ ыӹ hḧ õṏ ūṻ wẅ xẍ tẗ"),
    (0x309, "aả âẩ ăẳ eẻ êể iỉ oỏ ôổ ơở uủ ưử yỷ"), (0x30a, "aå uů wẘ yẙ"), (0x30b, "oő uű уӳ"),
    (0x30c, "cč dď eě lľ nň rř sš tť zž aǎ iǐ oǒ uǔ üǚ gǧ kǩ ʒǯ jǰ hȟ"),
    (0x30f, "aȁ eȅ iȉ oȍ rȑ uȕ ѵѷ"), (0x311, "aȃ eȇ iȋ oȏ rȓ uȗ"),
    (0x313, "αἀ εἐ ηἠ ιἰ οὀ υὐ ωὠ ρῤ"), (0x314, "αἁ εἑ ηἡ ιἱ οὁ υὑ ωὡ ρῥ"), (0x31b, "oơ uư"),
    (0x323, "bḅ dḍ hḥ kḳ lḷ mṃ nṇ rṛ sṣ tṭ vṿ wẉ zẓ aạ eẹ iị oọ ơợ uụ ưự yỵ"), (0x324, "uṳ"),
    (0x325, "aḁ"), (0x326, "sș tț"), (0x327, "cç gģ kķ lļ nņ rŗ sş tţ eȩ dḑ hḩ"),
    (0x328, "aą eę iį uų oǫ"), (0x32d, "dḓ eḙ lḽ nṋ tṱ uṷ"), (0x32e, "hḫ"), (0x330, "eḛ iḭ uṵ"),
    (0x331, "bḇ dḏ kḵ lḻ nṉ rṟ tṯ zẕ hẖ"),
    (0x338, "←↚ →↛ ↔↮ ⇐⇍ ⇔⇎ ⇒⇏ ∃∄ ∈∉ ∋∌ ∣∤ ∥∦ ∼≁ ≃≄ ≅≇ ≈≉ =≠ ≡≢ ≍≭ <≮ >≯ ≤≰ ≥≱ ≲≴ ≳≵ ≶≸ ≷≹ ≺⊀ ≻⊁ ⊂⊄"),
    (0x338, "⊃⊅ ⊆⊈ ⊇⊉ ⊢⊬ ⊨⊭ ⊩⊮ ⊫⊯ ≼⋠ ≽⋡ ⊑⋢ ⊒⋣ ⊲⋪ ⊳⋫ ⊴⋬ ⊵⋭"),
    (0x342, "ἀἆ ἁἇ ἠἦ ἡἧ ἰἶ ἱἷ ὐὖ ὑὗ ὠὦ ὡὧ αᾶ ηῆ ιῖ ϊῗ υῦ ϋῧ ωῶ"), (0x653, "اآ"),
    (0x654, "اأ وؤ يئ ەۀ ہۂ ےۓ"), (0x655, "اإ"), (0x93c, "नऩ रऱ ळऴ"), (0x9be, "\u09c7\u09cb"),
    (0x9d7, "\u09c7\u09cc"), (0xb3e, "\u0b47\u0b4b"), (0xb56, "\u0b47\u0b48"),
    (0xb57, "\u0b47\u0b4c"), (0xbbe, "\u0bc6\u0bca \u0bc7\u0bcb"), (0xbd7, "ஒஔ \u0bc6\u0bcc"),
    (0xc56, "\u0c46\u0c48"), (0xcc2, "\u0cc6\u0cca"),
    (0xcd5, "\u0cbf\u0cc0 \u0cc6\u0cc7 \u0cca\u0ccb"), (0xcd6, "\u0cc6\u0cc8"),
    (0xd3e, "\u0d46\u0d4a \u0d47\u0d4b"), (0xd57, "\u0d46\u0d4c"),
    (0xdca, "\u0dd9\u0dda \u0ddc\u0ddd"), (0xdcf, "\u0dd9\u0ddc"), (0xddf, "\u0dd9\u0dde"),
    (0x102e, "ဥဦ"),
    (0x1b35, "ᬅᬆ ᬇᬈ ᬉᬊ ᬋᬌ ᬍᬎ ᬑᬒ \u1b3a\u1b3b \u1b3c\u1b3d \u1b3e\u1b40 \u1b3f\u1b41 \u1b42\u1b43"),
    (0x3099, "かが きぎ くぐ けげ こご さざ しじ すず せぜ そぞ ただ ちぢ つづ てで とど はば ひび ふぶ へべ ほぼ うゔ ゝゞ カガ キギ クグ ケゲ コゴ サザ"),
    (0x3099, "シジ スズ セゼ ソゾ タダ チヂ ツヅ テデ トド ハバ ヒビ フブ ヘベ ホボ ウヴ ワヷ ヰヸ ヱヹ ヲヺ ヽヾ"),
    (0x309a, "はぱ ひぴ ふぷ へぺ ほぽ ハパ ヒピ フプ ヘペ ホポ"), (0x110ba, "𑂙𑂚 𑂛𑂜 𑂥𑂫"), (0x11127, "𑄱𑄮 𑄲𑄯"),
    (0x1133e, "𑍇𑍋"), (0x11357, "𑍇𑍌"), (0x113b8, "𑏅𑎸"), (0x113bb, "𑎄𑎅"), (0x113c2, "𑎋𑎎 𑏅𑏂"),
    (0x113c9, "𑎂𑎃 𑎐𑎑 𑏅𑏉"), (0x114b0, "𑒹𑒼"), (0x114ba, "𑒹𑒻"), (0x114bd, "𑒹𑒾"), (0x115af, "𑖸𑖺 𑖹𑖻"),
    (0x11930, "𑤵𑤸"), (0x1611e, "𖄡𖄞"), (0x1611f, "𖄦 𖄩𖄤 𖄡𖄦 𖄢𖄧"), (0x16120, "𖄨 𖄡𖄨"), (0x16129, "𖄡𖄩"),
    (0x16d67, "𖵨𖵧 𖵣𖵩 𖵩𖵪")]

/-- The composites, with their base and their mark. -/
def composites : List (Char × Char × Char) :=
  compositeRows.flatMap fun (mark, pairs) =>
    (pieces ' ' pairs.toList).filterMap fun
      | [base, whole] => some (whole, base, Char.ofNat mark)
      | _ => none

/-- Syllables follow each other by first consonant, vowel and last consonant, which may be missing:
there are 19, 21 and 28 of them. -/
def splitSyllable? (c : Char) : Option (Char × Char) :=
  let n := c.toNat - 0xAC00
  if c.toNat < 0xAC00 || 0xD7A4 ≤ c.toNat then none
  else if n % 28 = 0 then some (Char.ofNat (0x1100 + n / 588), Char.ofNat (0x1161 + n % 588 / 28))
  else some (Char.ofNat (0xAC00 + (n - n % 28)), Char.ofNat (0x11A7 + n % 28))

/-- The syllable of a first consonant and a vowel, or of a syllable that still lacks its last
consonant and that consonant. -/
def joinSyllable? (a b : Char) : Option Char :=
  let m := a.toNat
  let n := b.toNat
  if 0x1100 ≤ m && m < 0x1113 && 0x1161 ≤ n && n < 0x1176 then
    some (Char.ofNat (0xAC00 + ((m - 0x1100) * 21 + (n - 0x1161)) * 28))
  else if 0xAC00 ≤ m && m < 0xD7A4 && (m - 0xAC00) % 28 == 0 && 0x11A7 < n && n < 0x11C3 then
    some (Char.ofNat (m + (n - 0x11A7)))
  else none

/-- The base and the mark of a composite. -/
def split? (c : Char) : Option (Char × Char) :=
  ((composites.find? (·.1 == c)).map (·.2)).or (splitSyllable? c)

/-- The composite of a base and a mark. -/
def join? (base mark : Char) : Option Char :=
  ((composites.find? (·.2 == (base, mark))).map (·.1)).or (joinSyllable? base mark)

end Throttle.Text
