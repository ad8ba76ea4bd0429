import SqliteSchema.Text.Alphabetic

namespace SqliteSchema.Text

/-- The code points beyond ASCII of the general categories Nd, Nl and No. -/
def numericRanges : Ranges :=
  [(0xB2, 0xB3), (0xB9, 0xB9), (0xBC, 0xBE), (0x660, 0x669), (0x6F0, 0x6F9), (0x7C0, 0x7C9),
   (0x966, 0x96F), (0x9E6, 0x9EF), (0x9F4, 0x9F9), (0xA66, 0xA6F), (0xAE6, 0xAEF),
   (0xB66, 0xB6F), (0xB72, 0xB77), (0xBE6, 0xBF2), (0xC66, 0xC6F), (0xC78, 0xC7E),
   (0xCE6, 0xCEF), (0xD58, 0xD5E), (0xD66, 0xD78), (0xDE6, 0xDEF), (0xE50, 0xE59),
   (0xED0, 0xED9), (0xF20, 0xF33), (0x1040, 0x1049), (0x1090, 0x1099), (0x1369, 0x137C),
   (0x16EE, 0x16F0), (0x17E0, 0x17E9), (0x17F0, 0x17F9), (0x1810, 0x1819), (0x1946, 0x194F),
   (0x19D0, 0x19DA), (0x1A80, 0x1A89), (0x1A90, 0x1A99), (0x1B50, 0x1B59), (0x1BB0, 0x1BB9),
   (0x1C40, 0x1C49), (0x1C50, 0x1C59), (0x2070, 0x2070), (0x2074, 0x2079), (0x2080, 0x2089),
   (0x2150, 0x2182), (0x2185, 0x2189), (0x2460, 0x249B), (0x24EA, 0x24FF), (0x2776, 0x2793),
   (0x2CFD, 0x2CFD), (0x3007, 0x3007), (0x3021, 0x3029), (0x3038, 0x303A), (0x3192, 0x3195),
   (0x3220, 0x3229), (0x3248, 0x324F), (0x3251, 0x325F), (0x3280, 0x3289), (0x32B1, 0x32BF),
   (0xA620, 0xA629), (0xA6E6, 0xA6EF), (0xA830, 0xA835), (0xA8D0, 0xA8D9), (0xA900, 0xA909),
   (0xA9D0, 0xA9D9), (0xA9F0, 0xA9F9), (0xAA50, 0xAA59), (0xABF0, 0xABF9), (0xFF10, 0xFF19),
   (0x10107, 0x10133), (0x10140, 0x10178), (0x1018A, 0x1018B), (0x102E1, 0x102FB),
   (0x10320, 0x10323), (0x10341, 0x10341), (0x1034A, 0x1034A), (0x103D1, 0x103D5),
   (0x104A0, 0x104A9), (0x10858, 0x1085F), (0x10879, 0x1087F), (0x108A7, 0x108AF),
   (0x108FB, 0x108FF), (0x10916, 0x1091B), (0x109BC, 0x109BD), (0x109C0, 0x109CF),
   (0x109D2, 0x109FF), (0x10A40, 0x10A48), (0x10A7D, 0x10A7E), (0x10A9D, 0x10A9F),
   (0x10AEB, 0x10AEF), (0x10B58, 0x10B5F), (0x10B78, 0x10B7F), (0x10BA9, 0x10BAF),
   (0x10CFA, 0x10CFF), (0x10D30, 0x10D39), (0x10D40, 0x10D49), (0x10E60, 0x10E7E),
   (0x10F1D, 0x10F26), (0x10F51, 0x10F54), (0x10FC5, 0x10FCB), (0x11052, 0x1106F),
   (0x110F0, 0x110F9), (0x11136, 0x1113F), (0x111D0, 0x111D9), (0x111E1, 0x111F4),
   (0x112F0, 0x112F9), (0x11450, 0x11459), (0x114D0, 0x114D9), (0x11650, 0x11659),
   (0x116C0, 0x116C9), (0x116D0, 0x116E3), (0x11730, 0x1173B), (0x118E0, 0x118F2),
   (0x11950, 0x11959), (0x11BF0, 0x11BF9), (0x11C50, 0x11C6C), (0x11D50, 0x11D59),
   (0x11DA0, 0x11DA9), (0x11DE0, 0x11DE9), (0x11F50, 0x11F59), (0x11FC0, 0x11FD4),
   (0x12400, 0x1246E), (0x16130, 0x16139), (0x16A60, 0x16A69), (0x16AC0, 0x16AC9),
   (0x16B50, 0x16B59), (0x16B5B, 0x16B61), (0x16D70, 0x16D79), (0x16E80, 0x16E96),
   (0x16FF4, 0x16FF6), (0x1CCF0, 0x1CCF9), (0x1D2C0, 0x1D2D3), (0x1D2E0, 0x1D2F3),
   (0x1D360, 0x1D378), (0x1D7CE, 0x1D7FF), (0x1E140, 0x1E149), (0x1E2F0, 0x1E2F9),
   (0x1E4F0, 0x1E4F9), (0x1E5F1, 0x1E5FA), (0x1E8C7, 0x1E8CF), (0x1E950, 0x1E959),
   (0x1EC71, 0x1ECAB), (0x1ECAD, 0x1ECAF), (0x1ECB1, 0x1ECB4), (0x1ED01, 0x1ED2D),
   (0x1ED2F, 0x1ED3D), (0x1F100, 0x1F10C), (0x1FBF0, 0x1FBF9)]

/-- Numeric characters. Below 128 these are the ASCII digits, and no table is read. -/
def isNumeric (c : Char) : Bool :=
  if c.toNat < 128 then c.isDigit else numericRanges.contains c

/-- The characters that names are made of. -/
def isAlphanumeric (c : Char) : Bool := isAlphabetic c || isNumeric c

theorem isNumeric_of_isDigit {c : Char} (h : c.isDigit = true) : isNumeric c = true := by
  have hc : c.toNat < 128 := by
    simp [Char.isDigit, UInt32.le_iff_toNat_le] at h
    omega
  rw [isNumeric, if_pos hc, h]

theorem isAlphanumeric_of_isAlphanum {c : Char} (h : c.isAlphanum = true) :
    isAlphanumeric c = true := by
  rw [Char.isAlphanum, Bool.or_eq_true] at h
  rw [isAlphanumeric, Bool.or_eq_true]
  exact h.imp isAlphabetic_of_isAlpha isNumeric_of_isDigit

end SqliteSchema.Text
