import MailTemplate.Text.Basic
import MailTemplate.Text.Ranges
import MailTemplate.Text.Unprintable

/-!
# The characters of a domain

Every character that is typed into a domain is kept, left out, replaced or refused: capitals become small letters, and
characters that are only another shape of some text become that text. The tables hold code points beyond ASCII.
-/
namespace MailTemplate.Domain

/-- Code points that are left out. -/
def ignoredRanges : List (Nat × Nat) :=
  [(0xAD, 0xAD), (0x34F, 0x34F), (0x115F, 0x1160), (0x17B4, 0x17B5), (0x180B, 0x180F), (0x200B, 0x200B),
   (0x2060, 0x2064), (0x206A, 0x206F), (0x3164, 0x3164), (0xFE00, 0xFE0F), (0xFEFF, 0xFEFF),
   (0xFFA0, 0xFFA0), (0x1BCA0, 0x1BCA3), (0x1D173, 0x1D17A), (0xE0100, 0xE01EF)]

/-- Code points that are refused although they can be printed: those that stand for text with a character which no domain
may have, and those that only describe other characters. -/
def refusedRanges : List (Nat × Nat) :=
  [(0xA8, 0xA8), (0xAF, 0xAF), (0xB4, 0xB4), (0xB8, 0xB8), (0x2D8, 0x2DD), (0x37A, 0x37A), (0x384, 0x385),
   (0x1FBD, 0x1FBD), (0x1FBF, 0x1FC1), (0x1FCD, 0x1FCF), (0x1FDD, 0x1FDF), (0x1FED, 0x1FEE),
   (0x1FFD, 0x1FFE), (0x2017, 0x2017), (0x2024, 0x2026), (0x203E, 0x203E), (0x2047, 0x2049),
   (0x2100, 0x2101), (0x2105, 0x2106), (0x2488, 0x249B), (0x2A74, 0x2A74), (0x2FF0, 0x2FFF),
   (0x309B, 0x309C), (0x31EF, 0x31EF), (0x33C2, 0x33C2), (0x33C7, 0x33C7), (0x33D8, 0x33D8),
   (0xFC5E, 0xFC63), (0xFDFA, 0xFDFB), (0xFE12, 0xFE13), (0xFE16, 0xFE16), (0xFE19, 0xFE19),
   (0xFE30, 0xFE30), (0xFE47, 0xFE4C), (0xFE52, 0xFE52), (0xFE55, 0xFE56), (0xFE5F, 0xFE5F),
   (0xFE64, 0xFE65), (0xFE68, 0xFE68), (0xFE6A, 0xFE6B), (0xFE70, 0xFE70), (0xFE72, 0xFE72),
   (0xFE74, 0xFE74), (0xFE76, 0xFE76), (0xFE78, 0xFE78), (0xFE7A, 0xFE7A), (0xFE7C, 0xFE7C),
   (0xFE7E, 0xFE7E), (0xFF03, 0xFF03), (0xFF05, 0xFF05), (0xFF0F, 0xFF0F), (0xFF1A, 0xFF1A),
   (0xFF1C, 0xFF1C), (0xFF1E, 0xFF20), (0xFF3B, 0xFF3E), (0xFF5C, 0xFF5C), (0xFFE3, 0xFFE3),
   (0xFFFC, 0xFFFD), (0x1F100, 0x1F100)]

/-- Code points that can be printed, and that had no character yet when the table of unprintable ones was made. -/
def youngerRanges : List (Nat × Nat) :=
  [(0x88F, 0x88F), (0x897, 0x897), (0xC5C, 0xC5C), (0xCDC, 0xCDC), (0x1ACF, 0x1ADD), (0x1AE0, 0x1AEB),
   (0x1B4E, 0x1B4F), (0x1B7F, 0x1B7F), (0x1C89, 0x1C8A), (0x20C1, 0x20C1), (0x2427, 0x2429),
   (0x2B96, 0x2B96), (0x31E4, 0x31E5), (0xA7CB, 0xA7CF), (0xA7D2, 0xA7D2), (0xA7D4, 0xA7D4),
   (0xA7DA, 0xA7DC), (0xA7F1, 0xA7F1), (0xFBC3, 0xFBD2), (0xFD90, 0xFD91), (0xFDC8, 0xFDCE),
   (0x105C0, 0x105F3), (0x10940, 0x10959), (0x10D40, 0x10D65), (0x10D69, 0x10D85), (0x10D8E, 0x10D8F),
   (0x10EC2, 0x10EC7), (0x10ED0, 0x10ED8), (0x10EFA, 0x10EFC), (0x11380, 0x11389), (0x1138B, 0x1138B),
   (0x1138E, 0x1138E), (0x11390, 0x113B5), (0x113B7, 0x113C0), (0x113C2, 0x113C2), (0x113C5, 0x113C5),
   (0x113C7, 0x113CA), (0x113CC, 0x113D5), (0x113D7, 0x113D8), (0x113E1, 0x113E2), (0x116D0, 0x116E3),
   (0x11B60, 0x11B67), (0x11BC0, 0x11BE1), (0x11BF0, 0x11BF9), (0x11DB0, 0x11DDB), (0x11DE0, 0x11DE9),
   (0x11F5A, 0x11F5A), (0x13460, 0x143FA), (0x16100, 0x16139), (0x16D40, 0x16D79), (0x16EA0, 0x16EB8),
   (0x16EBB, 0x16ED3), (0x16FF2, 0x16FF6), (0x187F8, 0x187FF), (0x18CFF, 0x18CFF), (0x18D09, 0x18D1E),
   (0x18D80, 0x18DF2), (0x1CC00, 0x1CCFC), (0x1CD00, 0x1CEB3), (0x1CEBA, 0x1CED0), (0x1CEE0, 0x1CEF0),
   (0x1E5D0, 0x1E5FA), (0x1E5FF, 0x1E5FF), (0x1E6C0, 0x1E6DE), (0x1E6E0, 0x1E6F5), (0x1E6FE, 0x1E6FF),
   (0x1F6D8, 0x1F6D8), (0x1F777, 0x1F77A), (0x1F8B2, 0x1F8BB), (0x1F8C0, 0x1F8C1), (0x1F8D0, 0x1F8D8),
   (0x1FA54, 0x1FA57), (0x1FA89, 0x1FA8A), (0x1FA8E, 0x1FA8F), (0x1FABE, 0x1FABE), (0x1FAC6, 0x1FAC6),
   (0x1FAC8, 0x1FAC8), (0x1FACD, 0x1FACD), (0x1FADC, 0x1FADC), (0x1FADF, 0x1FADF), (0x1FAE9, 0x1FAEA),
   (0x1FAEF, 0x1FAEF), (0x1FBCB, 0x1FBEF), (0x1FBFA, 0x1FBFA), (0x2B73A, 0x2B73F), (0x2CEA2, 0x2CEAD),
   (0x323B0, 0x33479)]

/-- Replacements, by a first and a last code point and what each one from the first to the last is replaced by; `@` stands
for one that is kept or refused. -/
def replacements : List (Nat × Nat × String) :=
  [(0xAA, 0xAA, "a"),
   (0xB2, 0xD6, "2 3 @ μ @ @ @ 1 o @ 1⁄4 1⁄2 3⁄4 @ à á â ã ä å æ ç è é ê ë ì í î ï ð ñ ò ó ô õ ö"),
   (0xD8, 0xDE, "ø ù ú û ü ý þ"),
   (0x100, 0x128, "ā @ ă @ ą @ ć @ ĉ @ ċ @ č @ ď @ đ @ ē @ ĕ @ ė @ ę @ ě @ ĝ @ ğ @ ġ @ ģ @ ĥ @ ħ @ ĩ"),
   (0x12A, 0x14E, "ī @ ĭ @ į @ i̇ @ ij ij ĵ @ ķ @ @ ĺ @ ļ @ ľ @ l· l· ł @ ń @ ņ @ ň @ ʼn ŋ @ ō @ ŏ"),
   (0x150, 0x178, "ő @ œ @ ŕ @ ŗ @ ř @ ś @ ŝ @ ş @ š @ ţ @ ť @ ŧ @ ũ @ ū @ ŭ @ ů @ ű @ ų @ ŵ @ ŷ @ ÿ"),
   (0x179, 0x1A0, "ź @ ż @ ž @ s @ ɓ ƃ @ ƅ @ ɔ ƈ @ ɖ ɗ ƌ @ @ ǝ ə ɛ ƒ @ ɠ ɣ @ ɩ ɨ ƙ @ @ @ ɯ ɲ @ ɵ ơ"),
   (0x1A2, 0x1BC, "ƣ @ ƥ @ ʀ ƨ @ ʃ @ @ ƭ @ ʈ ư @ ʊ ʋ ƴ @ ƶ @ ʒ ƹ @ @ @ ƽ"),
   (0x1C4, 0x1E6, "dž dž dž lj lj lj nj nj nj ǎ @ ǐ @ ǒ @ ǔ @ ǖ @ ǘ @ ǚ @ ǜ @ @ ǟ @ ǡ @ ǣ @ ǥ @ ǧ"),
   (0x1E8, 0x20E, "ǩ @ ǫ @ ǭ @ ǯ @ @ dz dz dz ǵ @ ƕ ƿ ǹ @ ǻ @ ǽ @ ǿ @ ȁ @ ȃ @ ȅ @ ȇ @ ȉ @ ȋ @ ȍ @ ȏ"),
   (0x210, 0x232, "ȑ @ ȓ @ ȕ @ ȗ @ ș @ ț @ ȝ @ ȟ @ ƞ @ ȣ @ ȥ @ ȧ @ ȩ @ ȫ @ ȭ @ ȯ @ ȱ @ ȳ"),
   (0x23A, 0x24E, "ⱥ ȼ @ ƚ ⱦ @ @ ɂ @ ƀ ʉ ʌ ɇ @ ɉ @ ɋ @ ɍ @ ɏ"),
   (0x2B0, 0x2B8, "h ɦ j r ɹ ɻ ʁ w y"),
   (0x2E0, 0x2E4, "ɣ l s x ʕ"),
   (0x340, 0x345, "̀ ́ @ ̓ ̈́ ι"),
   (0x370, 0x376, "ͱ @ ͳ @ ʹ @ ͷ"),
   (0x37E, 0x37F, "; ϳ"),
   (0x386, 0x3AB, "ά · έ ή ί @ ό @ ύ ώ @ α β γ δ ε ζ η θ ι κ λ μ ν ξ ο π ρ @ σ τ υ φ χ ψ ω ϊ ϋ"),
   (0x3CF, 0x3F7, "ϗ β θ υ ύ ϋ φ π @ ϙ @ ϛ @ ϝ @ ϟ @ ϡ @ ϣ @ ϥ @ ϧ @ ϩ @ ϫ @ ϭ @ ϯ @ κ ρ σ @ θ ε @ ϸ"),
   (0x3F9, 0x421, "σ ϻ @ @ ͻ ͼ ͽ ѐ ё ђ ѓ є ѕ і ї ј љ њ ћ ќ ѝ ў џ а б в г д е ж з и й к л м н о п р с"),
   (0x422, 0x42F, "т у ф х ц ч ш щ ъ ы ь э ю я"),
   (0x460, 0x480, "ѡ @ ѣ @ ѥ @ ѧ @ ѩ @ ѫ @ ѭ @ ѯ @ ѱ @ ѳ @ ѵ @ ѷ @ ѹ @ ѻ @ ѽ @ ѿ @ ҁ"),
   (0x48A, 0x4B2, "ҋ @ ҍ @ ҏ @ ґ @ ғ @ ҕ @ җ @ ҙ @ қ @ ҝ @ ҟ @ ҡ @ ң @ ҥ @ ҧ @ ҩ @ ҫ @ ҭ @ ү @ ұ @ ҳ"),
   (0x4B4, 0x4DC, "ҵ @ ҷ @ ҹ @ һ @ ҽ @ ҿ @ ӏ ӂ @ ӄ @ ӆ @ ӈ @ ӊ @ ӌ @ ӎ @ @ ӑ @ ӓ @ ӕ @ ӗ @ ә @ ӛ @ ӝ"),
   (0x4DE, 0x506, "ӟ @ ӡ @ ӣ @ ӥ @ ӧ @ ө @ ӫ @ ӭ @ ӯ @ ӱ @ ӳ @ ӵ @ ӷ @ ӹ @ ӻ @ ӽ @ ӿ @ ԁ @ ԃ @ ԅ @ ԇ"),
   (0x508, 0x52E, "ԉ @ ԋ @ ԍ @ ԏ @ ԑ @ ԓ @ ԕ @ ԗ @ ԙ @ ԛ @ ԝ @ ԟ @ ԡ @ ԣ @ ԥ @ ԧ @ ԩ @ ԫ @ ԭ @ ԯ"),
   (0x531, 0x556, "ա բ գ դ ե զ է ը թ ժ ի լ խ ծ կ հ ձ ղ ճ մ յ ն շ ո չ պ ջ ռ ս վ տ ր ց ւ փ ք օ ֆ"),
   (0x587, 0x587, "եւ"),
   (0x675, 0x678, "اٴ وٴ ۇٴ يٴ"),
   (0x958, 0x95F, "क़ ख़ ग़ ज़ ड़ ढ़ फ़ य़"),
   (0x9DC, 0x9DF, "ড় ঢ় @ য়"),
   (0xA33, 0xA36, "ਲ਼ @ @ ਸ਼"),
   (0xA59, 0xA5E, "ਖ਼ ਗ਼ ਜ਼ @ @ ਫ਼"),
   (0xB5C, 0xB5D, "ଡ଼ ଢ଼"),
   (0xE33, 0xE33, "ํา"),
   (0xEB3, 0xEB3, "ໍາ"),
   (0xEDC, 0xEDD, "ຫນ ຫມ"),
   (0xF0C, 0xF0C, "་"),
   (0xF43, 0xF43, "གྷ"),
   (0xF4D, 0xF4D, "ཌྷ"),
   (0xF52, 0xF52, "དྷ"),
   (0xF57, 0xF57, "བྷ"),
   (0xF5C, 0xF5C, "ཛྷ"),
   (0xF69, 0xF69, "ཀྵ"),
   (0xF73, 0xF79, "ཱི @ ཱུ ྲྀ ྲཱྀ ླྀ ླཱྀ"),
   (0xF81, 0xF81, "ཱྀ"),
   (0xF93, 0xF93, "ྒྷ"),
   (0xF9D, 0xF9D, "ྜྷ"),
   (0xFA2, 0xFA2, "ྡྷ"),
   (0xFA7, 0xFA7, "ྦྷ"),
   (0xFAC, 0xFAC, "ྫྷ"),
   (0xFB9, 0xFB9, "ྐྵ"),
   (0x10A0, 0x10C7, "ⴀ ⴁ ⴂ ⴃ ⴄ ⴅ ⴆ ⴇ ⴈ ⴉ ⴊ ⴋ ⴌ ⴍ ⴎ ⴏ ⴐ ⴑ ⴒ ⴓ ⴔ ⴕ ⴖ ⴗ ⴘ ⴙ ⴚ ⴛ ⴜ ⴝ ⴞ ⴟ ⴠ ⴡ ⴢ ⴣ ⴤ ⴥ @ ⴧ"),
   (0x10CD, 0x10CD, "ⴭ"),
   (0x10FC, 0x10FC, "ნ"),
   (0x13F8, 0x13FD, "Ᏸ Ᏹ Ᏺ Ᏻ Ᏼ Ᏽ"),
   (0x1C80, 0x1C89, "в д о с т т ъ ѣ ꙋ ᲊ"),
   (0x1C90, 0x1CB8, "ა ბ გ დ ე ვ ზ თ ი კ ლ მ ნ ო პ ჟ რ ს ტ უ ფ ქ ღ ყ შ ჩ ც ძ წ ჭ ხ ჯ ჰ ჱ ჲ ჳ ჴ ჵ ჶ ჷ ჸ"),
   (0x1CB9, 0x1CBF, "ჹ ჺ @ @ ჽ ჾ ჿ"),
   (0x1D2C, 0x1D54, "a æ b @ d e ǝ g h i j k l m n @ o ȣ p r t u w a ɐ ɑ ᴂ b d e ə ɛ ɜ g @ k m ŋ o ɔ ᴖ"),
   (0x1D55, 0x1D6A, "ᴗ p t u ᴝ ɯ v ᴥ β γ δ φ χ i r u v β γ ρ φ χ"),
   (0x1D78, 0x1D78, "н"),
   (0x1D9B, 0x1DBF, "ɒ c ɕ ð ɜ f ɟ ɡ ɥ ɨ ɩ ɪ ᵻ ʝ ɭ ᶅ ʟ ɱ ɰ ɲ ɳ ɴ ɵ ɸ ʂ ʃ ƫ ʉ ʊ ᴜ ʋ ʌ z ʐ ʑ ʒ θ"),
   (0x1E00, 0x1E28, "ḁ @ ḃ @ ḅ @ ḇ @ ḉ @ ḋ @ ḍ @ ḏ @ ḑ @ ḓ @ ḕ @ ḗ @ ḙ @ ḛ @ ḝ @ ḟ @ ḡ @ ḣ @ ḥ @ ḧ @ ḩ"),
   (0x1E2A, 0x1E52, "ḫ @ ḭ @ ḯ @ ḱ @ ḳ @ ḵ @ ḷ @ ḹ @ ḻ @ ḽ @ ḿ @ ṁ @ ṃ @ ṅ @ ṇ @ ṉ @ ṋ @ ṍ @ ṏ @ ṑ @ ṓ"),
   (0x1E54, 0x1E7C, "ṕ @ ṗ @ ṙ @ ṛ @ ṝ @ ṟ @ ṡ @ ṣ @ ṥ @ ṧ @ ṩ @ ṫ @ ṭ @ ṯ @ ṱ @ ṳ @ ṵ @ ṷ @ ṹ @ ṻ @ ṽ"),
   (0x1E7E, 0x1E94, "ṿ @ ẁ @ ẃ @ ẅ @ ẇ @ ẉ @ ẋ @ ẍ @ ẏ @ ẑ @ ẓ @ ẕ"),
   (0x1E9A, 0x1EC0, "aʾ ṡ @ @ ß @ ạ @ ả @ ấ @ ầ @ ẩ @ ẫ @ ậ @ ắ @ ằ @ ẳ @ ẵ @ ặ @ ẹ @ ẻ @ ẽ @ ế @ ề"),
   (0x1EC2, 0x1EEA, "ể @ ễ @ ệ @ ỉ @ ị @ ọ @ ỏ @ ố @ ồ @ ổ @ ỗ @ ộ @ ớ @ ờ @ ở @ ỡ @ ợ @ ụ @ ủ @ ứ @ ừ"),
   (0x1EEC, 0x1EFE, "ử @ ữ @ ự @ ỳ @ ỵ @ ỷ @ ỹ @ ỻ @ ỽ @ ỿ"),
   (0x1F08, 0x1F0F, "ἀ ἁ ἂ ἃ ἄ ἅ ἆ ἇ"),
   (0x1F18, 0x1F1D, "ἐ ἑ ἒ ἓ ἔ ἕ"),
   (0x1F28, 0x1F2F, "ἠ ἡ ἢ ἣ ἤ ἥ ἦ ἧ"),
   (0x1F38, 0x1F3F, "ἰ ἱ ἲ ἳ ἴ ἵ ἶ ἷ"),
   (0x1F48, 0x1F4D, "ὀ ὁ ὂ ὃ ὄ ὅ"),
   (0x1F59, 0x1F5F, "ὑ @ ὓ @ ὕ @ ὗ"),
   (0x1F68, 0x1F8A, "ὠ ὡ ὢ ὣ ὤ ὥ ὦ ὧ @ ά @ έ @ ή @ ί @ ό @ ύ @ ώ @ @ ἀι ἁι ἂι ἃι ἄι ἅι ἆι ἇι ἀι ἁι ἂι"),
   (0x1F8B, 0x1FA5, "ἃι ἄι ἅι ἆι ἇι ἠι ἡι ἢι ἣι ἤι ἥι ἦι ἧι ἠι ἡι ἢι ἣι ἤι ἥι ἦι ἧι ὠι ὡι ὢι ὣι ὤι ὥι"),
   (0x1FA6, 0x1FC4, "ὦι ὧι ὠι ὡι ὢι ὣι ὤι ὥι ὦι ὧι @ @ ὰι αι άι @ @ ᾶι ᾰ ᾱ ὰ ά αι @ ι @ @ @ ὴι ηι ήι"),
   (0x1FC7, 0x1FCC, "ῆι ὲ έ ὴ ή ηι"),
   (0x1FD3, 0x1FD3, "ΐ"),
   (0x1FD8, 0x1FDB, "ῐ ῑ ὶ ί"),
   (0x1FE3, 0x1FE3, "ΰ"),
   (0x1FE8, 0x1FFC, "ῠ ῡ ὺ ύ ῥ @ @ \x60 @ @ ὼι ωι ώι @ @ ῶι ὸ ό ὼ ώ ωι"),
   (0x2011, 0x2011, "‐"),
   (0x2033, 0x2037, "′′ ′′′ @ ‵‵ ‵‵‵"),
   (0x203C, 0x203C, "!!"),
   (0x2057, 0x2057, "′′′′"),
   (0x2070, 0x2098, "0 i @ @ 4 5 6 7 8 9 + − = ( ) n 0 1 2 3 4 5 6 7 8 9 + − = ( ) @ a e o x ə h k l m"),
   (0x2099, 0x209C, "n p s t"),
   (0x20A8, 0x20A8, "rs"),
   (0x2102, 0x2126, "c °c @ @ @ ɛ @ °f g h h h h ħ i i l l @ n no @ @ p q r r r @ @ sm tel tm @ z @ ω"),
   (0x2128, 0x2140, "z @ k å b c @ e e f ⅎ m o א ב ג ד i @ fax π γ γ π ∑"),
   (0x2145, 0x2149, "d d e i j"),
   (0x2150, 0x2165, "1⁄7 1⁄9 1⁄10 1⁄3 2⁄3 1⁄5 2⁄5 3⁄5 4⁄5 1⁄6 5⁄6 1⁄8 3⁄8 5⁄8 7⁄8 1⁄ i ii iii iv v vi"),
   (0x2166, 0x217F, "vii viii ix x xi xii l c d m i ii iii iv v vi vii viii ix x xi xii l c d m"),
   (0x2183, 0x2183, "ↄ"),
   (0x2189, 0x2189, "0⁄3"),
   (0x222C, 0x2230, "∫∫ ∫∫∫ @ ∮∮ ∮∮∮"),
   (0x2329, 0x232A, "〈 〉"),
   (0x2460, 0x247A, "1 2 3 4 5 6 7 8 9 10 11 12 13 14 15 16 17 18 19 20 (1) (2) (3) (4) (5) (6) (7)"),
   (0x247B, 0x2487, "(8) (9) (10) (11) (12) (13) (14) (15) (16) (17) (18) (19) (20)"),
   (0x249C, 0x24AF, "(a) (b) (c) (d) (e) (f) (g) (h) (i) (j) (k) (l) (m) (n) (o) (p) (q) (r) (s) (t)"),
   (0x24B0, 0x24D2, "(u) (v) (w) (x) (y) (z) a b c d e f g h i j k l m n o p q r s t u v w x y z a b c"),
   (0x24D3, 0x24EA, "d e f g h i j k l m n o p q r s t u v w x y z 0"),
   (0x2A0C, 0x2A0C, "∫∫∫∫"),
   (0x2A75, 0x2A76, "== ==="),
   (0x2ADC, 0x2ADC, "⫝̸"),
   (0x2C00, 0x2C28, "ⰰ ⰱ ⰲ ⰳ ⰴ ⰵ ⰶ ⰷ ⰸ ⰹ ⰺ ⰻ ⰼ ⰽ ⰾ ⰿ ⱀ ⱁ ⱂ ⱃ ⱄ ⱅ ⱆ ⱇ ⱈ ⱉ ⱊ ⱋ ⱌ ⱍ ⱎ ⱏ ⱐ ⱑ ⱒ ⱓ ⱔ ⱕ ⱖ ⱗ ⱘ"),
   (0x2C29, 0x2C2F, "ⱙ ⱚ ⱛ ⱜ ⱝ ⱞ ⱟ"),
   (0x2C60, 0x2C75, "ⱡ @ ɫ ᵽ ɽ @ @ ⱨ @ ⱪ @ ⱬ @ ɑ ɱ ɐ ɒ @ ⱳ @ @ ⱶ"),
   (0x2C7C, 0x2CA4, "j v ȿ ɀ ⲁ @ ⲃ @ ⲅ @ ⲇ @ ⲉ @ ⲋ @ ⲍ @ ⲏ @ ⲑ @ ⲓ @ ⲕ @ ⲗ @ ⲙ @ ⲛ @ ⲝ @ ⲟ @ ⲡ @ ⲣ @ ⲥ"),
   (0x2CA6, 0x2CCE, "ⲧ @ ⲩ @ ⲫ @ ⲭ @ ⲯ @ ⲱ @ ⲳ @ ⲵ @ ⲷ @ ⲹ @ ⲻ @ ⲽ @ ⲿ @ ⳁ @ ⳃ @ ⳅ @ ⳇ @ ⳉ @ ⳋ @ ⳍ @ ⳏ"),
   (0x2CD0, 0x2CE2, "ⳑ @ ⳓ @ ⳕ @ ⳗ @ ⳙ @ ⳛ @ ⳝ @ ⳟ @ ⳡ @ ⳣ"),
   (0x2CEB, 0x2CED, "ⳬ @ ⳮ"),
   (0x2CF2, 0x2CF2, "ⳳ"),
   (0x2D6F, 0x2D6F, "ⵡ"),
   (0x2E9F, 0x2E9F, "母"),
   (0x2EF3, 0x2EF3, "龟"),
   (0x2F00, 0x2F28, "一 丨 丶 丿 乙 亅 二 亠 人 儿 入 八 冂 冖 冫 几 凵 刀 力 勹 匕 匚 匸 十 卜 卩 厂 厶 又 口 囗 土 士 夂 夊 夕 大 女 子 宀 寸"),
   (0x2F29, 0x2F51, "小 尢 尸 屮 山 巛 工 己 巾 干 幺 广 廴 廾 弋 弓 彐 彡 彳 心 戈 戶 手 支 攴 文 斗 斤 方 无 日 曰 月 木 欠 止 歹 殳 毋 比 毛"),
   (0x2F52, 0x2F7A, "氏 气 水 火 爪 父 爻 爿 片 牙 牛 犬 玄 玉 瓜 瓦 甘 生 用 田 疋 疒 癶 白 皮 皿 目 矛 矢 石 示 禸 禾 穴 立 竹 米 糸 缶 网 羊"),
   (0x2F7B, 0x2FA3, "羽 老 而 耒 耳 聿 肉 臣 自 至 臼 舌 舛 舟 艮 色 艸 虍 虫 血 行 衣 襾 見 角 言 谷 豆 豕 豸 貝 赤 走 足 身 車 辛 辰 辵 邑 酉"),
   (0x2FA4, 0x2FCC, "釆 里 金 長 門 阜 隶 隹 雨 靑 非 面 革 韋 韭 音 頁 風 飛 食 首 香 馬 骨 高 髟 鬥 鬯 鬲 鬼 魚 鳥 鹵 鹿 麥 麻 黃 黍 黑 黹 黽"),
   (0x2FCD, 0x2FD5, "鼎 鼓 鼠 鼻 齊 齒 龍 龜 龠"),
   (0x3002, 0x3002, "."),
   (0x3036, 0x303A, "〒 @ 十 卄 卅"),
   (0x309F, 0x309F, "より"),
   (0x30FF, 0x30FF, "コト"),
   (0x3131, 0x3159, "ᄀ ᄁ ᆪ ᄂ ᆬ ᆭ ᄃ ᄄ ᄅ ᆰ ᆱ ᆲ ᆳ ᆴ ᆵ ᄚ ᄆ ᄇ ᄈ ᄡ ᄉ ᄊ ᄋ ᄌ ᄍ ᄎ ᄏ ᄐ ᄑ ᄒ ᅡ ᅢ ᅣ ᅤ ᅥ ᅦ ᅧ ᅨ ᅩ ᅪ ᅫ"),
   (0x315A, 0x3182, "ᅬ ᅭ ᅮ ᅯ ᅰ ᅱ ᅲ ᅳ ᅴ ᅵ @ ᄔ ᄕ ᇇ ᇈ ᇌ ᇎ ᇓ ᇗ ᇙ ᄜ ᇝ ᇟ ᄝ ᄞ ᄠ ᄢ ᄣ ᄧ ᄩ ᄫ ᄬ ᄭ ᄮ ᄯ ᄲ ᄶ ᅀ ᅇ ᅌ ᇱ"),
   (0x3183, 0x319F, "ᇲ ᅗ ᅘ ᅙ ᆄ ᆅ ᆈ ᆑ ᆒ ᆔ ᆞ ᆡ @ @ @ 一 二 三 四 上 中 下 甲 乙 丙 丁 天 地 人"),
   (0x3200, 0x3213, "(ᄀ) (ᄂ) (ᄃ) (ᄅ) (ᄆ) (ᄇ) (ᄉ) (ᄋ) (ᄌ) (ᄎ) (ᄏ) (ᄐ) (ᄑ) (ᄒ) (가) (나) (다) (라) (마) (바)"),
   (0x3214, 0x3227, "(사) (아) (자) (차) (카) (타) (파) (하) (주) (오전) (오후) @ (一) (二) (三) (四) (五) (六) (七) (八)"),
   (0x3228, 0x323B, "(九) (十) (月) (火) (水) (木) (金) (土) (日) (株) (有) (社) (名) (特) (財) (祝) (労) (代) (呼) (学)"),
   (0x323C, 0x3247, "(監) (企) (資) (協) (祭) (休) (自) (至) 問 幼 文 箏"),
   (0x3250, 0x326F, "pte 21 22 23 24 25 26 27 28 29 30 31 32 33 34 35 ᄀ ᄂ ᄃ ᄅ ᄆ ᄇ ᄉ ᄋ ᄌ ᄎ ᄏ ᄐ ᄑ ᄒ 가 나"),
   (0x3270, 0x3297, "다 라 마 바 사 아 자 차 카 타 파 하 참고 주의 우 @ 一 二 三 四 五 六 七 八 九 十 月 火 水 木 金 土 日 株 有 社 名 特 財 祝"),
   (0x3298, 0x32BA, "労 秘 男 女 適 優 印 注 項 休 写 正 上 中 下 左 右 医 宗 学 監 企 資 協 夜 36 37 38 39 40 41 42 43 44 45"),
   (0x32BB, 0x32D6, "46 47 48 49 50 1月 2月 3月 4月 5月 6月 7月 8月 9月 10月 11月 12月 hg erg ev ltd ア イ ウ エ オ カ キ"),
   (0x32D7, 0x32FE, "ク ケ コ サ シ ス セ ソ タ チ ツ テ ト ナ ニ ヌ ネ ノ ハ ヒ フ ヘ ホ マ ミ ム メ モ ヤ ユ ヨ ラ リ ル レ ロ ワ ヰ ヱ ヲ"),
   (0x32FF, 0x3310, "令和 アパート アルファ アンペア アール イニング インチ ウォン エスクード エーカー オンス オーム カイリ カラット カロリー ガロン ガンマ ギガ"),
   (0x3311, 0x3320, "ギニー キュリー ギルダー キロ キログラム キロメートル キロワット グラム グラムトン クルゼイロ クローネ ケース コルナ コーポ サイクル サンチーム"),
   (0x3321, 0x3333, "シリング センチ セント ダース デシ ドル トン ナノ ノット ハイツ パーセント パーツ バーレル ピアストル ピクル ピコ ビル ファラッド フィート"),
   (0x3334, 0x3346, "ブッシェル フラン ヘクタール ペソ ペニヒ ヘルツ ペンス ページ ベータ ポイント ボルト ホン ポンド ホール ホーン マイクロ マイル マッハ マルク"),
   (0x3347, 0x3359, "マンション ミクロン ミリ ミリバール メガ メガトン メートル ヤード ヤール ユアン リットル リラ ルピー ルーブル レム レントゲン ワット 0点 1点"),
   (0x335A, 0x336F, "2点 3点 4点 5点 6点 7点 8点 9点 10点 11点 12点 13点 14点 15点 16点 17点 18点 19点 20点 21点 22点 23点"),
   (0x3370, 0x3387, "24点 hpa da au bar ov pc dm dm2 dm3 iu 平成 昭和 大正 明治 株式会社 pa na μa ma ka kb mb gb"),
   (0x3388, 0x339F, "cal kcal pf nf μf μg mg kg hz khz mhz ghz thz μl ml dl kl fm nm μm mm cm km mm2"),
   (0x33A0, 0x33B4, "cm2 m2 km2 mm3 cm3 m3 km3 m∕s m∕s2 pa kpa mpa gpa rad rad∕s rad∕s2 ps ns μs ms pv"),
   (0x33B5, 0x33CF, "nv μv mv kv mv pw nw μw mw kw mw kω mω @ bq cc cd c∕kg @ db gy ha hp in kk km kt"),
   (0x33D0, 0x33E8, "lm ln log lx mb mil mol ph @ ppm pr sr sv wb v∕m a∕m 1日 2日 3日 4日 5日 6日 7日 8日 9日"),
   (0x33E9, 0x33FC, "10日 11日 12日 13日 14日 15日 16日 17日 18日 19日 20日 21日 22日 23日 24日 25日 26日 27日 28日 29日"),
   (0x33FD, 0x33FF, "30日 31日 gal"),
   (0xA640, 0xA668, "ꙁ @ ꙃ @ ꙅ @ ꙇ @ ꙉ @ ꙋ @ ꙍ @ ꙏ @ ꙑ @ ꙓ @ ꙕ @ ꙗ @ ꙙ @ ꙛ @ ꙝ @ ꙟ @ ꙡ @ ꙣ @ ꙥ @ ꙧ @ ꙩ"),
   (0xA66A, 0xA66C, "ꙫ @ ꙭ"),
   (0xA680, 0xA69D, "ꚁ @ ꚃ @ ꚅ @ ꚇ @ ꚉ @ ꚋ @ ꚍ @ ꚏ @ ꚑ @ ꚓ @ ꚕ @ ꚗ @ ꚙ @ ꚛ @ ъ ь"),
   (0xA722, 0xA74A, "ꜣ @ ꜥ @ ꜧ @ ꜩ @ ꜫ @ ꜭ @ ꜯ @ @ @ ꜳ @ ꜵ @ ꜷ @ ꜹ @ ꜻ @ ꜽ @ ꜿ @ ꝁ @ ꝃ @ ꝅ @ ꝇ @ ꝉ @ ꝋ"),
   (0xA74C, 0xA770, "ꝍ @ ꝏ @ ꝑ @ ꝓ @ ꝕ @ ꝗ @ ꝙ @ ꝛ @ ꝝ @ ꝟ @ ꝡ @ ꝣ @ ꝥ @ ꝧ @ ꝩ @ ꝫ @ ꝭ @ ꝯ @ ꝯ"),
   (0xA779, 0xA786, "ꝺ @ ꝼ @ ᵹ ꝿ @ ꞁ @ ꞃ @ ꞅ @ ꞇ"),
   (0xA78B, 0xA7B3, "ꞌ @ ɥ @ @ ꞑ @ ꞓ @ @ @ ꞗ @ ꞙ @ ꞛ @ ꞝ @ ꞟ @ ꞡ @ ꞣ @ ꞥ @ ꞧ @ ꞩ @ ɦ ɜ ɡ ɬ ɪ @ ʞ ʇ ʝ ꭓ"),
   (0xA7B4, 0xA7DC, "ꞵ @ ꞷ @ ꞹ @ ꞻ @ ꞽ @ ꞿ @ ꟁ @ ꟃ @ ꞔ ʂ ᶎ ꟈ @ ꟊ @ ɤ ꟍ @ ꟏ @ ꟑ @ ꟓ @ ꟕ @ ꟗ @ ꟙ @ ꟛ @ ƛ"),
   (0xA7F1, 0xA7F9, "s c f q ꟶ @ @ ħ œ"),
   (0xAB5C, 0xAB5F, "ꜧ ꬷ ɫ ꭒ"),
   (0xAB69, 0xAB69, "ʍ"),
   (0xAB70, 0xAB98, "Ꭰ Ꭱ Ꭲ Ꭳ Ꭴ Ꭵ Ꭶ Ꭷ Ꭸ Ꭹ Ꭺ Ꭻ Ꭼ Ꭽ Ꭾ Ꭿ Ꮀ Ꮁ Ꮂ Ꮃ Ꮄ Ꮅ Ꮆ Ꮇ Ꮈ Ꮉ Ꮊ Ꮋ Ꮌ Ꮍ Ꮎ Ꮏ Ꮐ Ꮑ Ꮒ Ꮓ Ꮔ Ꮕ Ꮖ Ꮗ Ꮘ"),
   (0xAB99, 0xABBF, "Ꮙ Ꮚ Ꮛ Ꮜ Ꮝ Ꮞ Ꮟ Ꮠ Ꮡ Ꮢ Ꮣ Ꮤ Ꮥ Ꮦ Ꮧ Ꮨ Ꮩ Ꮪ Ꮫ Ꮬ Ꮭ Ꮮ Ꮯ Ꮰ Ꮱ Ꮲ Ꮳ Ꮴ Ꮵ Ꮶ Ꮷ Ꮸ Ꮹ Ꮺ Ꮻ Ꮼ Ꮽ Ꮾ Ꮿ"),
   (0xF900, 0xF928, "豈 更 車 賈 滑 串 句 龜 龜 契 金 喇 奈 懶 癩 羅 蘿 螺 裸 邏 樂 洛 烙 珞 落 酪 駱 亂 卵 欄 爛 蘭 鸞 嵐 濫 藍 襤 拉 臘 蠟 廊"),
   (0xF929, 0xF951, "朗 浪 狼 郎 來 冷 勞 擄 櫓 爐 盧 老 蘆 虜 路 露 魯 鷺 碌 祿 綠 菉 錄 鹿 論 壟 弄 籠 聾 牢 磊 賂 雷 壘 屢 樓 淚 漏 累 縷 陋"),
   (0xF952, 0xF97A, "勒 肋 凜 凌 稜 綾 菱 陵 讀 拏 樂 諾 丹 寧 怒 率 異 北 磻 便 復 不 泌 數 索 參 塞 省 葉 說 殺 辰 沈 拾 若 掠 略 亮 兩 凉 梁"),
   (0xF97B, 0xF9A3, "糧 良 諒 量 勵 呂 女 廬 旅 濾 礪 閭 驪 麗 黎 力 曆 歷 轢 年 憐 戀 撚 漣 煉 璉 秊 練 聯 輦 蓮 連 鍊 列 劣 咽 烈 裂 說 廉 念"),
   (0xF9A4, 0xF9CC, "捻 殮 簾 獵 令 囹 寧 嶺 怜 玲 瑩 羚 聆 鈴 零 靈 領 例 禮 醴 隸 惡 了 僚 寮 尿 料 樂 燎 療 蓼 遼 龍 暈 阮 劉 杻 柳 流 溜 琉"),
   (0xF9CD, 0xF9F5, "留 硫 紐 類 六 戮 陸 倫 崙 淪 輪 律 慄 栗 率 隆 利 吏 履 易 李 梨 泥 理 痢 罹 裏 裡 里 離 匿 溺 吝 燐 璘 藺 隣 鱗 麟 林 淋"),
   (0xF9F6, 0xFA1E, "臨 立 笠 粒 狀 炙 識 什 茶 刺 切 度 拓 糖 宅 洞 暴 輻 行 降 見 廓 兀 嗀 @ @ 塚 @ 晴 @ @ 凞 猪 益 礼 神 祥 福 靖 精 羽"),
   (0xFA20, 0xFA48, "蘒 @ 諸 @ @ 逸 都 @ @ @ 飯 飼 館 鶴 郞 隷 侮 僧 免 勉 勤 卑 喝 嘆 器 塀 墨 層 屮 悔 慨 憎 懲 敏 既 暑 梅 海 渚 漢 煮"),
   (0xFA49, 0xFA71, "爫 琢 碑 社 祉 祈 祐 祖 祝 禍 禎 穀 突 節 練 縉 繁 署 者 臭 艹 艹 著 褐 視 謁 謹 賓 贈 辶 逸 難 響 頻 恵 𤋮 舘 @ @ 並 况"),
   (0xFA72, 0xFA9A, "全 侀 充 冀 勇 勺 喝 啕 喙 嗢 塚 墳 奄 奔 婢 嬨 廒 廙 彩 徭 惘 慎 愈 憎 慠 懲 戴 揄 搜 摒 敖 晴 朗 望 杖 歹 殺 流 滛 滋 漢"),
   (0xFA9B, 0xFAC3, "瀞 煮 瞧 爵 犯 猪 瑱 甆 画 瘝 瘟 益 盛 直 睊 着 磌 窱 節 类 絛 練 缾 者 荒 華 蝹 襁 覆 視 調 諸 請 謁 諾 諭 謹 變 贈 輸 遲"),
   (0xFAC4, 0xFAD9, "醙 鉶 陼 難 靖 韛 響 頋 頻 鬒 龜 𢡊 𢡄 𣏕 㮝 䀘 䀹 𥉉 𥳐 𧻓 齃 龎"),
   (0xFB00, 0xFB06, "ff fi fl ffi ffl st st"),
   (0xFB13, 0xFB17, "մն մե մի վն մխ"),
   (0xFB1D, 0xFB3A, "יִ @ ײַ ע א ד ה כ ל ם ר ת + שׁ שׂ שּׁ שּׂ אַ אָ אּ בּ גּ דּ הּ וּ זּ @ טּ יּ ךּ"),
   (0xFB3B, 0xFB5A, "כּ לּ @ מּ @ נּ סּ @ ףּ פּ @ צּ קּ רּ שּ תּ וֹ בֿ כֿ פֿ אל ٱ ٱ ٻ ٻ ٻ ٻ پ پ پ پ ڀ"),
   (0xFB5B, 0xFB83, "ڀ ڀ ڀ ٺ ٺ ٺ ٺ ٿ ٿ ٿ ٿ ٹ ٹ ٹ ٹ ڤ ڤ ڤ ڤ ڦ ڦ ڦ ڦ ڄ ڄ ڄ ڄ ڃ ڃ ڃ ڃ چ چ چ چ ڇ ڇ ڇ ڇ ڍ ڍ"),
   (0xFB84, 0xFBAC, "ڌ ڌ ڎ ڎ ڈ ڈ ژ ژ ڑ ڑ ک ک ک ک گ گ گ گ ڳ ڳ ڳ ڳ ڱ ڱ ڱ ڱ ں ں ڻ ڻ ڻ ڻ ۀ ۀ ہ ہ ہ ہ ھ ھ ھ"),
   (0xFBAD, 0xFBB1, "ھ ے ے ۓ ۓ"),
   (0xFBD3, 0xFBF4, "ڭ ڭ ڭ ڭ ۇ ۇ ۆ ۆ ۈ ۈ ۇٴ ۋ ۋ ۅ ۅ ۉ ۉ ې ې ې ې ى ى ئا ئا ئە ئە ئو ئو ئۇ ئۇ ئۆ ئۆ ئۈ"),
   (0xFBF5, 0xFC10, "ئۈ ئې ئې ئې ئى ئى ئى ی ی ی ی ئج ئح ئم ئى ئي بج بح بخ بم بى بي تج تح تخ تم تى تي"),
   (0xFC11, 0xFC2B, "ثج ثم ثى ثي جح جم حج حم خج خح خم سج سح سخ سم صح صم ضج ضح ضخ ضم طح طم ظم عج عم غج"),
   (0xFC2C, 0xFC46, "غم فج فح فخ فم فى في قح قم قى قي كا كج كح كخ كل كم كى كي لج لح لخ لم لى لي مج مح"),
   (0xFC47, 0xFC5D, "مخ مم مى مي نج نح نخ نم نى ني هج هم هى هي يج يح يخ يم يى يي ذٰ رٰ ىٰ"),
   (0xFC64, 0xFC7E, "ئر ئز ئم ئن ئى ئي بر بز بم بن بى بي تر تز تم تن تى تي ثر ثز ثم ثن ثى ثي فى في قى"),
   (0xFC7F, 0xFC99, "قي كا كل كم كى كي لم لى لي ما مم نر نز نم نن نى ني ىٰ ير يز يم ين يى يي ئج ئح ئخ"),
   (0xFC9A, 0xFCB4, "ئم ئه بج بح بخ بم به تج تح تخ تم ته ثم جح جم حج حم خج خم سج سح سخ سم صح صخ صم ضج"),
   (0xFCB5, 0xFCCF, "ضح ضخ ضم طح ظم عج عم غج غم فج فح فخ فم قح قم كج كح كخ كل كم لج لح لخ لم له مج مح"),
   (0xFCD0, 0xFCEA, "مخ مم نج نح نخ نم نه هج هم هٰ يج يح يخ يم يه ئم ئه بم به تم ته ثم ثه سم سه شم شه"),
   (0xFCEB, 0xFD04, "كل كم لم نم نه يم يه ـَّ ـُّ ـِّ طى طي عى عي غى غي سى سي شى شي حى حي جى جي خى خي"),
   (0xFD05, 0xFD1F, "صى صي ضى ضي شج شح شخ شم شر سر صر ضر طى طي عى عي غى غي سى سي شى شي حى حي جى جي خى"),
   (0xFD20, 0xFD3A, "خي صى صي ضى ضي شج شح شخ شم شر سر صر ضر شج شح شخ شم سه شه طم سج سح سخ شج شح شخ طم"),
   (0xFD3B, 0xFD3D, "ظم اً اً"),
   (0xFD50, 0xFD63, "تجم تحج تحج تحم تخم تمج تمح تمخ جمح جمح حمي حمى سحج سجح سجى سمح سمح سمج سمم سمم"),
   (0xFD64, 0xFD77, "صحح صحح صمم شحم شحم شجي شمخ شمخ شمم شمم ضحى ضخم ضخم طمح طمح طمم طمي عجم عمم عمم"),
   (0xFD78, 0xFD8B, "عمى غمم غمي غمى فخم فخم قمح قمم لحم لحي لحى لجج لجج لخم لخم لمح لمح محج محم محي"),
   (0xFD8C, 0xFDA0, "مجح مجم مخج مخم @ @ مجخ همج همم نحم نحى نجم نجم نجى نمي نمى يمم يمم بخي تجي تجى"),
   (0xFDA1, 0xFDB4, "تخي تخى تمي تمى جمي جحى جمى سخى صحي شحي ضحي لجي لمي يحي يجي يمي ممي قمي نحي قمح"),
   (0xFDB5, 0xFDC7, "لحم عمي كمي نجح مخي لجم كمم لجم نجح جحي حجي مجي فمي بحي كمم عجم صمم سخي نجي"),
   (0xFDF0, 0xFDFC, "صلے قلے الله اكبر محمد صلعم رسول عليه وسلم صلى @ @ ریال"),
   (0xFE10, 0xFE18, ", 、 @ @ ; ! @ 〖 〗"),
   (0xFE31, 0xFE44, "— – _ _ ( ) \x7b \x7d 〔 〕 【 】 《 》 〈 〉 「 」 『 』"),
   (0xFE4D, 0xFE69, "_ _ _ , 、 @ @ ; @ @ ! — ( ) \x7b \x7d 〔 〕 @ & * + - @ @ = @ @ $"),
   (0xFE71, 0xFE71, "ـً"),
   (0xFE77, 0xFE9C, "ـَ @ ـُ @ ـِ @ ـّ @ ـْ ء آ آ أ أ ؤ ؤ إ إ ئ ئ ئ ئ ا ا ب ب ب ب ة ة ت ت ت ت ث ث ث ث"),
   (0xFE9D, 0xFEC5, "ج ج ج ج ح ح ح ح خ خ خ خ د د ذ ذ ر ر ز ز س س س س ش ش ش ش ص ص ص ص ض ض ض ض ط ط ط ط ظ"),
   (0xFEC6, 0xFEEE, "ظ ظ ظ ع ع ع ع غ غ غ غ ف ف ف ف ق ق ق ق ك ك ك ك ل ل ل ل م م م م ن ن ن ن ه ه ه ه و و"),
   (0xFEEF, 0xFEFC, "ى ى ي ي ي ي لآ لآ لأ لأ لإ لإ لا لا"),
   (0xFF01, 0xFF28, "! \" @ $ @ & ' ( ) * + , - . @ 0 1 2 3 4 5 6 7 8 9 @ ; @ = @ @ @ a b c d e f g h"),
   (0xFF29, 0xFF3A, "i j k l m n o p q r s t u v w x y z"),
   (0xFF3F, 0xFF62, "_ \x60 a b c d e f g h i j k l m n o p q r s t u v w x y z \x7b @ \x7d ~ ⦅ ⦆ . 「"),
   (0xFF63, 0xFF8B, "」 、 ・ ヲ ァ ィ ゥ ェ ォ ャ ュ ョ ッ ー ア イ ウ エ オ カ キ ク ケ コ サ シ ス セ ソ タ チ ツ テ ト ナ ニ ヌ ネ ノ ハ ヒ"),
   (0xFF8C, 0xFFB4, "フ ヘ ホ マ ミ ム メ モ ヤ ユ ヨ ラ リ ル レ ロ ワ ン ゙ ゚ @ ᄀ ᄁ ᆪ ᄂ ᆬ ᆭ ᄃ ᄄ ᄅ ᆰ ᆱ ᆲ ᆳ ᆴ ᆵ ᄚ ᄆ ᄇ ᄈ ᄡ"),
   (0xFFB5, 0xFFDC, "ᄉ ᄊ ᄋ ᄌ ᄍ ᄎ ᄏ ᄐ ᄑ ᄒ @ @ @ ᅡ ᅢ ᅣ ᅤ ᅥ ᅦ @ @ ᅧ ᅨ ᅩ ᅪ ᅫ ᅬ @ @ ᅭ ᅮ ᅯ ᅰ ᅱ ᅲ @ @ ᅳ ᅴ ᅵ"),
   (0xFFE0, 0xFFEE, "¢ £ ¬ @ ¦ ¥ ₩ @ │ ← ↑ → ↓ ■ ○"),
   (0x10400, 0x10427, "𐐨 𐐩 𐐪 𐐫 𐐬 𐐭 𐐮 𐐯 𐐰 𐐱 𐐲 𐐳 𐐴 𐐵 𐐶 𐐷 𐐸 𐐹 𐐺 𐐻 𐐼 𐐽 𐐾 𐐿 𐑀 𐑁 𐑂 𐑃 𐑄 𐑅 𐑆 𐑇 𐑈 𐑉 𐑊 𐑋 𐑌 𐑍 𐑎 𐑏"),
   (0x104B0, 0x104D3, "𐓘 𐓙 𐓚 𐓛 𐓜 𐓝 𐓞 𐓟 𐓠 𐓡 𐓢 𐓣 𐓤 𐓥 𐓦 𐓧 𐓨 𐓩 𐓪 𐓫 𐓬 𐓭 𐓮 𐓯 𐓰 𐓱 𐓲 𐓳 𐓴 𐓵 𐓶 𐓷 𐓸 𐓹 𐓺 𐓻"),
   (0x10570, 0x10595, "𐖗 𐖘 𐖙 𐖚 𐖛 𐖜 𐖝 𐖞 𐖟 𐖠 𐖡 @ 𐖣 𐖤 𐖥 𐖦 𐖧 𐖨 𐖩 𐖪 𐖫 𐖬 𐖭 𐖮 𐖯 𐖰 𐖱 @ 𐖳 𐖴 𐖵 𐖶 𐖷 𐖸 𐖹 @ 𐖻 𐖼"),
   (0x10781, 0x107A9, "ː ˑ æ ʙ ɓ @ ʣ ꭦ ʥ ʤ ɖ ɗ ᶑ ɘ ɞ ʩ ɤ ɢ ɠ ʛ ħ ʜ ɧ ʄ ʪ ʫ ɬ 𝼄 ꞎ ɮ 𝼅 ʎ 𝼆 ø ɶ ɷ q ɺ 𝼈 ɽ ɾ"),
   (0x107AA, 0x107BA, "ʀ ʨ ʦ ꭧ ʧ ʈ ⱱ @ ʏ ʡ ʢ ʘ ǀ ǁ ǂ 𝼊 𝼞"),
   (0x10C80, 0x10CA8, "𐳀 𐳁 𐳂 𐳃 𐳄 𐳅 𐳆 𐳇 𐳈 𐳉 𐳊 𐳋 𐳌 𐳍 𐳎 𐳏 𐳐 𐳑 𐳒 𐳓 𐳔 𐳕 𐳖 𐳗 𐳘 𐳙 𐳚 𐳛 𐳜 𐳝 𐳞 𐳟 𐳠 𐳡 𐳢 𐳣 𐳤 𐳥 𐳦 𐳧 𐳨"),
   (0x10CA9, 0x10CB2, "𐳩 𐳪 𐳫 𐳬 𐳭 𐳮 𐳯 𐳰 𐳱 𐳲"),
   (0x10D50, 0x10D65, "𐵰 𐵱 𐵲 𐵳 𐵴 𐵵 𐵶 𐵷 𐵸 𐵹 𐵺 𐵻 𐵼 𐵽 𐵾 𐵿 𐶀 𐶁 𐶂 𐶃 𐶄 𐶅"),
   (0x118A0, 0x118BF, "𑣀 𑣁 𑣂 𑣃 𑣄 𑣅 𑣆 𑣇 𑣈 𑣉 𑣊 𑣋 𑣌 𑣍 𑣎 𑣏 𑣐 𑣑 𑣒 𑣓 𑣔 𑣕 𑣖 𑣗 𑣘 𑣙 𑣚 𑣛 𑣜 𑣝 𑣞 𑣟"),
   (0x16E40, 0x16E5F, "𖹠 𖹡 𖹢 𖹣 𖹤 𖹥 𖹦 𖹧 𖹨 𖹩 𖹪 𖹫 𖹬 𖹭 𖹮 𖹯 𖹰 𖹱 𖹲 𖹳 𖹴 𖹵 𖹶 𖹷 𖹸 𖹹 𖹺 𖹻 𖹼 𖹽 𖹾 𖹿"),
   (0x16EA0, 0x16EB8, "𖺻 𖺼 𖺽 𖺾 𖺿 𖻀 𖻁 𖻂 𖻃 𖻄 𖻅 𖻆 𖻇 𖻈 𖻉 𖻊 𖻋 𖻌 𖻍 𖻎 𖻏 𖻐 𖻑 𖻒 𖻓"),
   (0x1CCD6, 0x1CCF9, "a b c d e f g h i j k l m n o p q r s t u v w x y z 0 1 2 3 4 5 6 7 8 9"),
   (0x1D15E, 0x1D164, "𝅗𝅥 𝅘𝅥 𝅘𝅥𝅮 𝅘𝅥𝅯 𝅘𝅥𝅰 𝅘𝅥𝅱 𝅘𝅥𝅲"),
   (0x1D1BB, 0x1D1C0, "𝆹𝅥 𝆺𝅥 𝆹𝅥𝅮 𝆺𝅥𝅮 𝆹𝅥𝅯 𝆺𝅥𝅯"),
   (0x1D400, 0x1D428, "a b c d e f g h i j k l m n o p q r s t u v w x y z a b c d e f g h i j k l m n o"),
   (0x1D429, 0x1D451, "p q r s t u v w x y z a b c d e f g h i j k l m n o p q r s t u v w x y z a b c d"),
   (0x1D452, 0x1D47A, "e f g @ i j k l m n o p q r s t u v w x y z a b c d e f g h i j k l m n o p q r s"),
   (0x1D47B, 0x1D4A2, "t u v w x y z a b c d e f g h i j k l m n o p q r s t u v w x y z a @ c d @ @ g"),
   (0x1D4A5, 0x1D4CD, "j k @ @ n o p q @ s t u v w x y z a b c d @ f @ h i j k l m n @ p q r s t u v w x"),
   (0x1D4CE, 0x1D4F6, "y z a b c d e f g h i j k l m n o p q r s t u v w x y z a b c d e f g h i j k l m"),
   (0x1D4F7, 0x1D51F, "n o p q r s t u v w x y z a b @ d e f g @ @ j k l m n o p q @ s t u v w x y @ a b"),
   (0x1D520, 0x1D546, "c d e f g h i j k l m n o p q r s t u v w x y z a b @ d e f g @ i j k l m @ o"),
   (0x1D54A, 0x1D572, "s t u v w x y @ a b c d e f g h i j k l m n o p q r s t u v w x y z a b c d e f g"),
   (0x1D573, 0x1D59B, "h i j k l m n o p q r s t u v w x y z a b c d e f g h i j k l m n o p q r s t u v"),
   (0x1D59C, 0x1D5C4, "w x y z a b c d e f g h i j k l m n o p q r s t u v w x y z a b c d e f g h i j k"),
   (0x1D5C5, 0x1D5ED, "l m n o p q r s t u v w x y z a b c d e f g h i j k l m n o p q r s t u v w x y z"),
   (0x1D5EE, 0x1D616, "a b c d e f g h i j k l m n o p q r s t u v w x y z a b c d e f g h i j k l m n o"),
   (0x1D617, 0x1D63F, "p q r s t u v w x y z a b c d e f g h i j k l m n o p q r s t u v w x y z a b c d"),
   (0x1D640, 0x1D668, "e f g h i j k l m n o p q r s t u v w x y z a b c d e f g h i j k l m n o p q r s"),
   (0x1D669, 0x1D691, "t u v w x y z a b c d e f g h i j k l m n o p q r s t u v w x y z a b c d e f g h"),
   (0x1D692, 0x1D6BA, "i j k l m n o p q r s t u v w x y z ı ȷ @ @ α β γ δ ε ζ η θ ι κ λ μ ν ξ ο π ρ θ σ"),
   (0x1D6BB, 0x1D6E3, "τ υ φ χ ψ ω ∇ α β γ δ ε ζ η θ ι κ λ μ ν ξ ο π ρ σ σ τ υ φ χ ψ ω ∂ ε θ κ φ ρ π α β"),
   (0x1D6E4, 0x1D70C, "γ δ ε ζ η θ ι κ λ μ ν ξ ο π ρ θ σ τ υ φ χ ψ ω ∇ α β γ δ ε ζ η θ ι κ λ μ ν ξ ο π ρ"),
   (0x1D70D, 0x1D735, "σ σ τ υ φ χ ψ ω ∂ ε θ κ φ ρ π α β γ δ ε ζ η θ ι κ λ μ ν ξ ο π ρ θ σ τ υ φ χ ψ ω ∇"),
   (0x1D736, 0x1D75E, "α β γ δ ε ζ η θ ι κ λ μ ν ξ ο π ρ σ σ τ υ φ χ ψ ω ∂ ε θ κ φ ρ π α β γ δ ε ζ η θ ι"),
   (0x1D75F, 0x1D787, "κ λ μ ν ξ ο π ρ θ σ τ υ φ χ ψ ω ∇ α β γ δ ε ζ η θ ι κ λ μ ν ξ ο π ρ σ σ τ υ φ χ ψ"),
   (0x1D788, 0x1D7B0, "ω ∂ ε θ κ φ ρ π α β γ δ ε ζ η θ ι κ λ μ ν ξ ο π ρ θ σ τ υ φ χ ψ ω ∇ α β γ δ ε ζ η"),
   (0x1D7B1, 0x1D7D9, "θ ι κ λ μ ν ξ ο π ρ σ σ τ υ φ χ ψ ω ∂ ε θ κ φ ρ π ϝ ϝ @ @ 0 1 2 3 4 5 6 7 8 9 0 1"),
   (0x1D7DA, 0x1D7FF, "2 3 4 5 6 7 8 9 0 1 2 3 4 5 6 7 8 9 0 1 2 3 4 5 6 7 8 9 0 1 2 3 4 5 6 7 8 9"),
   (0x1E030, 0x1E058, "а б в г д е ж з и к л м о п р с т у ф х ц ч ш ы э ю ꚉ ә і ј ө ү ӏ а б в г д е ж з"),
   (0x1E059, 0x1E06D, "и к л о п с у ф х ц ч ш ъ ы ґ і ѕ џ ҫ ꙑ ұ"),
   (0x1E900, 0x1E921, "𞤢 𞤣 𞤤 𞤥 𞤦 𞤧 𞤨 𞤩 𞤪 𞤫 𞤬 𞤭 𞤮 𞤯 𞤰 𞤱 𞤲 𞤳 𞤴 𞤵 𞤶 𞤷 𞤸 𞤹 𞤺 𞤻 𞤼 𞤽 𞤾 𞤿 𞥀 𞥁 𞥂 𞥃"),
   (0x1EE00, 0x1EE27, "ا ب ج د @ و ز ح ط ي ك ل م ن س ع ف ص ق ر ش ت ث خ ذ ض ظ غ ٮ ں ڡ ٯ @ ب ج @ ه @ @ ح"),
   (0x1EE29, 0x1EE3B, "ي ك ل م ن س ع ف ص ق @ ش ت ث خ @ ض @ غ"),
   (0x1EE42, 0x1EE42, "ج"),
   (0x1EE47, 0x1EE6F, "ح @ ي @ ل @ ن س ع @ ص ق @ ش @ @ خ @ ض @ غ @ ں @ ٯ @ ب ج @ ه @ @ ح ط ي ك @ م ن س ع"),
   (0x1EE70, 0x1EE98, "ف ص ق @ ش ت ث خ @ ض ظ غ ٮ @ ڡ @ ا ب ج د ه و ز ح ط ي @ ل م ن س ع ف ص ق ر ش ت ث خ ذ"),
   (0x1EE99, 0x1EE9B, "ض ظ غ"),
   (0x1EEA1, 0x1EEBB, "ب ج د @ و ز ح ط ي @ ل م ن س ع ف ص ق ر ش ت ث خ ذ ض ظ غ"),
   (0x1F101, 0x1F10A, "0, 1, 2, 3, 4, 5, 6, 7, 8, 9,"),
   (0x1F110, 0x1F123, "(a) (b) (c) (d) (e) (f) (g) (h) (i) (j) (k) (l) (m) (n) (o) (p) (q) (r) (s) (t)"),
   (0x1F124, 0x1F144, "(u) (v) (w) (x) (y) (z) 〔s〕 c r cd wz @ a b c d e f g h i j k l m n o p q r s t u"),
   (0x1F145, 0x1F14F, "v w x y z hv mv sd ss ppv wc"),
   (0x1F16A, 0x1F16C, "mc md mr"),
   (0x1F190, 0x1F190, "dj"),
   (0x1F200, 0x1F202, "ほか ココ サ"),
   (0x1F210, 0x1F238, "手 字 双 デ 二 多 解 天 交 映 無 料 前 後 再 新 初 終 生 販 声 吹 演 投 捕 一 三 遊 左 中 右 指 走 打 禁 空 合 満 有 月 申"),
   (0x1F239, 0x1F23B, "割 営 配"),
   (0x1F240, 0x1F248, "〔本〕 〔三〕 〔二〕 〔安〕 〔点〕 〔打〕 〔盗〕 〔勝〕 〔敗〕"),
   (0x1F250, 0x1F251, "得 可"),
   (0x1FBF0, 0x1FBF9, "0 1 2 3 4 5 6 7 8 9"),
   (0x2F800, 0x2F828, "丽 丸 乁 𠄢 你 侮 侻 倂 偺 備 僧 像 㒞 𠘺 免 兔 兤 具 𠔜 㒹 內 再 𠕋 冗 冤 仌 冬 况 𩇟 凵 刃 㓟 刻 剆 割 剷 㔕 勇 勉 勤 勺"),
   (0x2F829, 0x2F851, "包 匆 北 卉 卑 博 即 卽 卿 卿 卿 𠨬 灰 及 叟 𠭣 叫 叱 吆 咞 吸 呈 周 咢 哶 唐 啓 啣 善 善 喙 喫 喳 嗂 圖 嘆 圗 噑 噴 切 壮"),
   (0x2F852, 0x2F87A, "城 埴 堍 型 堲 報 墬 𡓤 売 壷 夆 多 夢 奢 𡚨 𡛪 姬 娛 娧 姘 婦 㛮 㛼 嬈 嬾 嬾 𡧈 寃 寘 寧 寳 𡬘 寿 将 当 尢 㞁 屠 屮 峀 岍"),
   (0x2F87B, 0x2F8A3, "𡷤 嵃 𡷦 嵮 嵫 嵼 巡 巢 㠯 巽 帨 帽 幩 㡢 𢆃 㡼 庰 庳 庶 廊 𪎒 廾 𢌱 𢌱 舁 弢 弢 㣇 𣊸 𦇚 形 彫 㣣 徚 忍 志 忹 悁 㤺 㤜 悔"),
   (0x2F8A4, 0x2F8CC, "𢛔 惇 慈 慌 慎 慌 慺 憎 憲 憤 憯 懞 懲 懶 成 戛 扝 抱 拔 捐 𢬌 挽 拼 捨 掃 揤 𢯱 搢 揅 掩 㨮 摩 摾 撝 摷 㩬 敏 敬 𣀊 旣 書"),
   (0x2F8CD, 0x2F8F5, "晉 㬙 暑 㬈 㫤 冒 冕 最 暜 肭 䏙 朗 望 朡 杞 杓 𣏃 㭉 柺 枅 桒 梅 𣑭 梎 栟 椔 㮝 楂 榣 槪 檨 𣚣 櫛 㰘 次 𣢧 歔 㱎 歲 殟 殺"),
   (0x2F8F6, 0x2F91E, "殻 𣪍 𡴋 𣫺 汎 𣲼 沿 泍 汧 洖 派 海 流 浩 浸 涅 𣴞 洴 港 湮 㴳 滋 滇 𣻑 淹 潮 𣽞 𣾎 濆 瀹 瀞 瀛 㶖 灊 災 灷 炭 𠔥 煅 𤉣 熜"),
   (0x2F91F, 0x2F947, "𤎫 爨 爵 牐 𤘈 犀 犕 𤜵 𤠔 獺 王 㺬 玥 㺸 㺸 瑇 瑜 瑱 璅 瓊 㼛 甤 𤰶 甾 𤲒 異 𢆟 瘐 𤾡 𤾸 𥁄 㿼 䀈 直 𥃳 𥃲 𥄙 𥄳 眞 真 真"),
   (0x2F948, 0x2F970, "睊 䀹 瞋 䁆 䂖 𥐝 硎 碌 磌 䃣 𥘦 祖 𥚚 𥛅 福 秫 䄯 穀 穊 穏 𥥼 𥪧 𥪧 竮 䈂 𥮫 篆 築 䈧 𥲀 糒 䊠 糨 糣 紀 𥾆 絣 䌁 緇 縂 繅"),
   (0x2F971, 0x2F999, "䌴 𦈨 𦉇 䍙 𦋙 罺 𦌾 羕 翺 者 𦓚 𦔣 聠 𦖨 聰 𣍟 䏕 育 脃 䐋 脾 媵 𦞧 𦞵 𣎓 𣎜 舁 舄 辞 䑫 芑 芋 芝 劳 花 芳 芽 苦 𦬼 若 茝"),
   (0x2F99A, 0x2F9C2, "荣 莭 茣 莽 菧 著 荓 菊 菌 菜 𦰶 𦵫 𦳕 䔫 蓱 蓳 蔖 𧏊 蕤 𦼬 䕝 䕡 𦾱 𧃒 䕫 虐 虜 虧 虩 蚩 蚈 蜎 蛢 蝹 蜨 蝫 螆 䗗 蟡 蠁 䗹"),
   (0x2F9C3, 0x2F9EB, "衠 衣 𧙧 裗 裞 䘵 裺 㒻 𧢮 𧥦 䚾 䛇 誠 諭 變 豕 𧲨 貫 賁 贛 起 𧼯 𠠄 跋 趼 跰 𠣞 軔 輸 𨗒 𨗭 邔 郱 鄑 𨜮 鄛 鈸 鋗 鋘 鉼 鏹"),
   (0x2F9EC, 0x2FA14, "鐕 𨯺 開 䦕 閷 𨵷 䧦 雃 嶲 霣 𩅅 𩈚 䩮 䩶 韠 𩐊 䪲 𩒖 頋 頋 頩 𩖶 飢 䬳 餩 馧 駂 駾 䯎 𩬰 鬒 鱀 鳽 䳎 䳭 鵧 𪃎 䳸 𪄅 𪈎 𪊑"),
   (0x2FA15, 0x2FA1D, "麻 䵖 黹 黾 鼅 鼏 鼖 鼻 𪘀")]

/-- What a code point is replaced by. -/
def replacement? (n : Nat) : Option Text :=
  match replacements.find? fun (first, last, _) => first ≤ n && n ≤ last with
  | none => none
  | some (first, _, texts) => ((Text.words texts.toList)[n - first]?).filter (· != ['@'])

/-- The two characters without a shape of their own that join or part their neighbours; they are kept. -/
def isJoiner (c : Char) : Bool := c.toNat == 0x200C || c.toNat == 0x200D

/-- What stands in a domain where `c` was typed; `none` if it is refused. -/
def mapChar? (c : Char) : Option Text :=
  let n := c.toNat
  if n < 0x80 then some [c.toLower]
  else if Text.inRanges ignoredRanges n then some []
  else
    match replacement? n with
    | some t => some t
    | none =>
      if isJoiner c then some [c]
      else if Text.inRanges refusedRanges n then none
      else if Text.inRanges Text.unprintableRanges n && !Text.inRanges youngerRanges n then none
      else some [c]

/-- Whether a character is kept as it is. -/
def isKept (c : Char) : Bool := mapChar? c == some [c]

-- what is put in place of a younger character is kept in its turn
example : mapChar? '\uA7DA' = some ['\uA7DB'] ∧ isKept '\uA7DB' = true := by decide +kernel

/-- What stands in a domain where a text was typed. -/
def mapAll? (t : Text) : Option Text := (t.mapM mapChar?).map List.flatten

end MailTemplate.Domain
