import IrDialects.Text.Mark

/-!
# Base letters

The reduction of a text to ASCII by compatibility decomposition: an accented or styled letter keeps
its base letter, a ligature or enclosed number is spelt out, nonspacing marks vanish, and any other
character beyond ASCII leaves a blank in its place.
-/

namespace IrDialects.Text.BaseLetter

/-- How the base letters of a run of code points go on from the first one. -/
inductive Course where
  /-- Every code point has the same base letter. -/
  | same
  /-- The base letters go up together with the code points. -/
  | next
  /-- The two cases of one letter take turns. -/
  | paired
deriving Repr, DecidableEq

/-- Consecutive code points whose decompositions are single ASCII letters or digits. -/
structure Run where
  start : Nat
  count : Nat
  letter : Char
  course : Course
deriving Repr, DecidableEq

private def runsFirst : List Run :=
  [
    ⟨0x00AA, 1, 'a', .same⟩, ⟨0x00B2, 2, '2', .next⟩, ⟨0x00B9, 1, '1', .same⟩,
    ⟨0x00BA, 1, 'o', .same⟩, ⟨0x00C0, 6, 'A', .same⟩, ⟨0x00C7, 1, 'C', .same⟩,
    ⟨0x00C8, 4, 'E', .same⟩, ⟨0x00CC, 4, 'I', .same⟩, ⟨0x00D1, 2, 'N', .next⟩,
    ⟨0x00D3, 4, 'O', .same⟩, ⟨0x00D9, 4, 'U', .same⟩, ⟨0x00DD, 1, 'Y', .same⟩,
    ⟨0x00E0, 6, 'a', .same⟩, ⟨0x00E7, 1, 'c', .same⟩, ⟨0x00E8, 4, 'e', .same⟩,
    ⟨0x00EC, 4, 'i', .same⟩, ⟨0x00F1, 2, 'n', .next⟩, ⟨0x00F3, 4, 'o', .same⟩,
    ⟨0x00F9, 4, 'u', .same⟩, ⟨0x00FD, 1, 'y', .same⟩, ⟨0x00FF, 1, 'y', .same⟩,
    ⟨0x0100, 6, 'A', .paired⟩, ⟨0x0106, 8, 'C', .paired⟩, ⟨0x010E, 2, 'D', .paired⟩,
    ⟨0x0112, 10, 'E', .paired⟩, ⟨0x011C, 8, 'G', .paired⟩, ⟨0x0124, 2, 'H', .paired⟩,
    ⟨0x0128, 9, 'I', .paired⟩, ⟨0x0134, 2, 'J', .paired⟩, ⟨0x0136, 2, 'K', .paired⟩,
    ⟨0x0139, 6, 'L', .paired⟩, ⟨0x0143, 6, 'N', .paired⟩, ⟨0x014C, 6, 'O', .paired⟩,
    ⟨0x0154, 6, 'R', .paired⟩, ⟨0x015A, 8, 'S', .paired⟩, ⟨0x0162, 4, 'T', .paired⟩,
    ⟨0x0168, 12, 'U', .paired⟩, ⟨0x0174, 2, 'W', .paired⟩, ⟨0x0176, 3, 'Y', .paired⟩,
    ⟨0x0179, 6, 'Z', .paired⟩, ⟨0x017F, 1, 's', .same⟩, ⟨0x01A0, 2, 'O', .paired⟩,
    ⟨0x01AF, 2, 'U', .paired⟩, ⟨0x01CD, 2, 'A', .paired⟩, ⟨0x01CF, 2, 'I', .paired⟩,
    ⟨0x01D1, 2, 'O', .paired⟩, ⟨0x01D3, 10, 'U', .paired⟩, ⟨0x01DE, 4, 'A', .paired⟩,
    ⟨0x01E6, 2, 'G', .paired⟩, ⟨0x01E8, 2, 'K', .paired⟩, ⟨0x01EA, 4, 'O', .paired⟩,
    ⟨0x01F0, 1, 'j', .same⟩, ⟨0x01F4, 2, 'G', .paired⟩, ⟨0x01F8, 2, 'N', .paired⟩,
    ⟨0x01FA, 2, 'A', .paired⟩, ⟨0x0200, 4, 'A', .paired⟩, ⟨0x0204, 4, 'E', .paired⟩,
    ⟨0x0208, 4, 'I', .paired⟩, ⟨0x020C, 4, 'O', .paired⟩, ⟨0x0210, 4, 'R', .paired⟩,
    ⟨0x0214, 4, 'U', .paired⟩, ⟨0x0218, 2, 'S', .paired⟩, ⟨0x021A, 2, 'T', .paired⟩,
    ⟨0x021E, 2, 'H', .paired⟩, ⟨0x0226, 2, 'A', .paired⟩, ⟨0x0228, 2, 'E', .paired⟩,
    ⟨0x022A, 8, 'O', .paired⟩, ⟨0x0232, 2, 'Y', .paired⟩, ⟨0x02B0, 1, 'h', .same⟩,
    ⟨0x02B2, 1, 'j', .same⟩, ⟨0x02B3, 1, 'r', .same⟩, ⟨0x02B7, 1, 'w', .same⟩,
    ⟨0x02B8, 1, 'y', .same⟩, ⟨0x02E1, 1, 'l', .same⟩, ⟨0x02E2, 1, 's', .same⟩,
    ⟨0x02E3, 1, 'x', .same⟩, ⟨0x1D2C, 1, 'A', .same⟩, ⟨0x1D2E, 1, 'B', .same⟩,
    ⟨0x1D30, 2, 'D', .next⟩, ⟨0x1D33, 8, 'G', .next⟩, ⟨0x1D3C, 1, 'O', .same⟩,
    ⟨0x1D3E, 1, 'P', .same⟩, ⟨0x1D3F, 1, 'R', .same⟩, ⟨0x1D40, 2, 'T', .next⟩,
    ⟨0x1D42, 1, 'W', .same⟩, ⟨0x1D43, 1, 'a', .same⟩, ⟨0x1D47, 1, 'b', .same⟩,
    ⟨0x1D48, 2, 'd', .next⟩, ⟨0x1D4D, 1, 'g', .same⟩, ⟨0x1D4F, 1, 'k', .same⟩,
    ⟨0x1D50, 1, 'm', .same⟩, ⟨0x1D52, 1, 'o', .same⟩, ⟨0x1D56, 1, 'p', .same⟩,
    ⟨0x1D57, 2, 't', .next⟩, ⟨0x1D5B, 1, 'v', .same⟩, ⟨0x1D62, 1, 'i', .same⟩,
    ⟨0x1D63, 1, 'r', .same⟩, ⟨0x1D64, 2, 'u', .next⟩, ⟨0x1D9C, 1, 'c', .same⟩,
    ⟨0x1DA0, 1, 'f', .same⟩, ⟨0x1DBB, 1, 'z', .same⟩, ⟨0x1E00, 2, 'A', .paired⟩,
    ⟨0x1E02, 6, 'B', .paired⟩, ⟨0x1E08, 2, 'C', .paired⟩, ⟨0x1E0A, 10, 'D', .paired⟩,
    ⟨0x1E14, 10, 'E', .paired⟩, ⟨0x1E1E, 2, 'F', .paired⟩, ⟨0x1E20, 2, 'G', .paired⟩,
    ⟨0x1E22, 10, 'H', .paired⟩, ⟨0x1E2C, 4, 'I', .paired⟩, ⟨0x1E30, 6, 'K', .paired⟩,
    ⟨0x1E36, 8, 'L', .paired⟩, ⟨0x1E3E, 6, 'M', .paired⟩, ⟨0x1E44, 8, 'N', .paired⟩,
    ⟨0x1E4C, 8, 'O', .paired⟩, ⟨0x1E54, 4, 'P', .paired⟩, ⟨0x1E58, 8, 'R', .paired⟩,
    ⟨0x1E60, 10, 'S', .paired⟩, ⟨0x1E6A, 8, 'T', .paired⟩, ⟨0x1E72, 10, 'U', .paired⟩,
    ⟨0x1E7C, 4, 'V', .paired⟩, ⟨0x1E80, 10, 'W', .paired⟩, ⟨0x1E8A, 4, 'X', .paired⟩,
    ⟨0x1E8E, 2, 'Y', .paired⟩, ⟨0x1E90, 6, 'Z', .paired⟩, ⟨0x1E96, 1, 'h', .same⟩,
    ⟨0x1E97, 1, 't', .same⟩, ⟨0x1E98, 1, 'w', .same⟩, ⟨0x1E99, 1, 'y', .same⟩,
    ⟨0x1E9B, 1, 's', .same⟩]

private def runsSecond : List Run :=
  [
    ⟨0x1EA0, 24, 'A', .paired⟩, ⟨0x1EB8, 16, 'E', .paired⟩, ⟨0x1EC8, 4, 'I', .paired⟩,
    ⟨0x1ECC, 24, 'O', .paired⟩, ⟨0x1EE4, 14, 'U', .paired⟩, ⟨0x1EF2, 8, 'Y', .paired⟩,
    ⟨0x2070, 1, '0', .same⟩, ⟨0x2071, 1, 'i', .same⟩, ⟨0x2074, 6, '4', .next⟩,
    ⟨0x207F, 1, 'n', .same⟩, ⟨0x2080, 10, '0', .next⟩, ⟨0x2090, 1, 'a', .same⟩,
    ⟨0x2091, 1, 'e', .same⟩, ⟨0x2092, 1, 'o', .same⟩, ⟨0x2093, 1, 'x', .same⟩,
    ⟨0x2095, 1, 'h', .same⟩, ⟨0x2096, 4, 'k', .next⟩, ⟨0x209A, 1, 'p', .same⟩,
    ⟨0x209B, 2, 's', .next⟩, ⟨0x2102, 1, 'C', .same⟩, ⟨0x210A, 1, 'g', .same⟩,
    ⟨0x210B, 3, 'H', .same⟩, ⟨0x210E, 1, 'h', .same⟩, ⟨0x2110, 2, 'I', .same⟩,
    ⟨0x2112, 2, 'L', .paired⟩, ⟨0x2115, 1, 'N', .same⟩, ⟨0x2119, 3, 'P', .next⟩,
    ⟨0x211C, 2, 'R', .same⟩, ⟨0x2124, 1, 'Z', .same⟩, ⟨0x2128, 1, 'Z', .same⟩,
    ⟨0x212A, 1, 'K', .same⟩, ⟨0x212B, 3, 'A', .next⟩, ⟨0x212F, 2, 'e', .paired⟩,
    ⟨0x2131, 1, 'F', .same⟩, ⟨0x2133, 1, 'M', .same⟩, ⟨0x2134, 1, 'o', .same⟩,
    ⟨0x2139, 1, 'i', .same⟩, ⟨0x2145, 2, 'D', .paired⟩, ⟨0x2147, 1, 'e', .same⟩,
    ⟨0x2148, 2, 'i', .next⟩, ⟨0x2160, 1, 'I', .same⟩, ⟨0x2164, 1, 'V', .same⟩,
    ⟨0x2169, 1, 'X', .same⟩, ⟨0x216C, 1, 'L', .same⟩, ⟨0x216D, 2, 'C', .next⟩,
    ⟨0x216F, 1, 'M', .same⟩, ⟨0x2170, 1, 'i', .same⟩, ⟨0x2174, 1, 'v', .same⟩,
    ⟨0x2179, 1, 'x', .same⟩, ⟨0x217C, 1, 'l', .same⟩, ⟨0x217D, 2, 'c', .next⟩,
    ⟨0x217F, 1, 'm', .same⟩, ⟨0x2460, 9, '1', .next⟩, ⟨0x24B6, 26, 'A', .next⟩,
    ⟨0x24D0, 26, 'a', .next⟩, ⟨0x24EA, 1, '0', .same⟩, ⟨0x2C7C, 1, 'j', .same⟩,
    ⟨0x2C7D, 1, 'V', .same⟩, ⟨0xA7F2, 1, 'C', .same⟩, ⟨0xA7F3, 1, 'F', .same⟩,
    ⟨0xA7F4, 1, 'Q', .same⟩, ⟨0xFF10, 10, '0', .next⟩, ⟨0xFF21, 26, 'A', .next⟩,
    ⟨0xFF41, 26, 'a', .next⟩, ⟨0x107A5, 1, 'q', .same⟩, ⟨0x1D400, 26, 'A', .next⟩,
    ⟨0x1D41A, 26, 'a', .next⟩, ⟨0x1D434, 26, 'A', .next⟩, ⟨0x1D44E, 7, 'a', .next⟩,
    ⟨0x1D456, 18, 'i', .next⟩, ⟨0x1D468, 26, 'A', .next⟩, ⟨0x1D482, 26, 'a', .next⟩,
    ⟨0x1D49C, 1, 'A', .same⟩, ⟨0x1D49E, 2, 'C', .next⟩, ⟨0x1D4A2, 1, 'G', .same⟩,
    ⟨0x1D4A5, 2, 'J', .next⟩, ⟨0x1D4A9, 4, 'N', .next⟩, ⟨0x1D4AE, 8, 'S', .next⟩,
    ⟨0x1D4B6, 4, 'a', .next⟩, ⟨0x1D4BB, 1, 'f', .same⟩, ⟨0x1D4BD, 7, 'h', .next⟩,
    ⟨0x1D4C5, 11, 'p', .next⟩, ⟨0x1D4D0, 26, 'A', .next⟩, ⟨0x1D4EA, 26, 'a', .next⟩,
    ⟨0x1D504, 2, 'A', .next⟩, ⟨0x1D507, 4, 'D', .next⟩, ⟨0x1D50D, 8, 'J', .next⟩,
    ⟨0x1D516, 7, 'S', .next⟩, ⟨0x1D51E, 26, 'a', .next⟩, ⟨0x1D538, 2, 'A', .next⟩,
    ⟨0x1D53B, 4, 'D', .next⟩, ⟨0x1D540, 5, 'I', .next⟩, ⟨0x1D546, 1, 'O', .same⟩,
    ⟨0x1D54A, 7, 'S', .next⟩, ⟨0x1D552, 26, 'a', .next⟩, ⟨0x1D56C, 26, 'A', .next⟩,
    ⟨0x1D586, 26, 'a', .next⟩, ⟨0x1D5A0, 26, 'A', .next⟩, ⟨0x1D5BA, 26, 'a', .next⟩,
    ⟨0x1D5D4, 26, 'A', .next⟩, ⟨0x1D5EE, 26, 'a', .next⟩, ⟨0x1D608, 26, 'A', .next⟩,
    ⟨0x1D622, 26, 'a', .next⟩, ⟨0x1D63C, 26, 'A', .next⟩, ⟨0x1D656, 26, 'a', .next⟩,
    ⟨0x1D670, 26, 'A', .next⟩, ⟨0x1D68A, 26, 'a', .next⟩, ⟨0x1D7CE, 10, '0', .next⟩,
    ⟨0x1D7D8, 10, '0', .next⟩, ⟨0x1D7E2, 10, '0', .next⟩, ⟨0x1D7EC, 10, '0', .next⟩,
    ⟨0x1D7F6, 10, '0', .next⟩, ⟨0x1F12B, 1, 'C', .same⟩, ⟨0x1F12C, 1, 'R', .same⟩,
    ⟨0x1F130, 26, 'A', .next⟩, ⟨0x1FBF0, 10, '0', .next⟩]

/-- The characters with one base letter, in increasing order of code points. -/
def runs : List Run :=
  runsFirst ++ runsSecond

private def spelledOutFirst : List (Nat × String) :=
  [
    (0x00BC, "1 4"), (0x00BD, "1 2"), (0x00BE, "3 4"), (0x0132, "IJ"), (0x0133, "ij"),
    (0x013F, "L "), (0x0140, "l "), (0x0149, " n"), (0x01C4, "DZ"), (0x01C5, "Dz"),
    (0x01C6, "dz"), (0x01C7, "LJ"), (0x01C8, "Lj"), (0x01C9, "lj"), (0x01CA, "NJ"),
    (0x01CB, "Nj"), (0x01CC, "nj"), (0x01F1, "DZ"), (0x01F2, "Dz"), (0x01F3, "dz"),
    (0x1E9A, "a "), (0x20A8, "Rs"), (0x2100, "a/c"), (0x2101, "a/s"), (0x2103, " C"),
    (0x2105, "c/o"), (0x2106, "c/u"), (0x2109, " F"), (0x2116, "No"), (0x2120, "SM"),
    (0x2121, "TEL"), (0x2122, "TM"), (0x213B, "FAX"), (0x2150, "1 7"), (0x2151, "1 9"),
    (0x2152, "1 10"), (0x2153, "1 3"), (0x2154, "2 3"), (0x2155, "1 5"), (0x2156, "2 5"),
    (0x2157, "3 5"), (0x2158, "4 5"), (0x2159, "1 6"), (0x215A, "5 6"), (0x215B, "1 8"),
    (0x215C, "3 8"), (0x215D, "5 8"), (0x215E, "7 8"), (0x215F, "1 "), (0x2161, "II"),
    (0x2162, "III"), (0x2163, "IV"), (0x2165, "VI"), (0x2166, "VII"), (0x2167, "VIII"),
    (0x2168, "IX"), (0x216A, "XI"), (0x216B, "XII"), (0x2171, "ii"), (0x2172, "iii"),
    (0x2173, "iv"), (0x2175, "vi"), (0x2176, "vii"), (0x2177, "viii"), (0x2178, "ix"),
    (0x217A, "xi"), (0x217B, "xii"), (0x2189, "0 3"), (0x2469, "10"), (0x246A, "11"),
    (0x246B, "12"), (0x246C, "13"), (0x246D, "14"), (0x246E, "15"), (0x246F, "16"),
    (0x2470, "17"), (0x2471, "18"), (0x2472, "19"), (0x2473, "20"), (0x2474, "(1)"),
    (0x2475, "(2)"), (0x2476, "(3)"), (0x2477, "(4)"), (0x2478, "(5)"), (0x2479, "(6)"),
    (0x247A, "(7)"), (0x247B, "(8)"), (0x247C, "(9)"), (0x247D, "(10)"), (0x247E, "(11)"),
    (0x247F, "(12)"), (0x2480, "(13)"), (0x2481, "(14)"), (0x2482, "(15)"), (0x2483, "(16)"),
    (0x2484, "(17)"), (0x2485, "(18)"), (0x2486, "(19)"), (0x2487, "(20)"), (0x2488, "1."),
    (0x2489, "2."), (0x248A, "3."), (0x248B, "4."), (0x248C, "5."), (0x248D, "6."),
    (0x248E, "7."), (0x248F, "8."), (0x2490, "9."), (0x2491, "10."), (0x2492, "11."),
    (0x2493, "12."), (0x2494, "13."), (0x2495, "14."), (0x2496, "15."), (0x2497, "16."),
    (0x2498, "17."), (0x2499, "18."), (0x249A, "19."), (0x249B, "20."), (0x249C, "(a)"),
    (0x249D, "(b)"), (0x249E, "(c)"), (0x249F, "(d)"), (0x24A0, "(e)"), (0x24A1, "(f)"),
    (0x24A2, "(g)"), (0x24A3, "(h)"), (0x24A4, "(i)"), (0x24A5, "(j)"), (0x24A6, "(k)"),
    (0x24A7, "(l)"), (0x24A8, "(m)"), (0x24A9, "(n)"), (0x24AA, "(o)"), (0x24AB, "(p)"),
    (0x24AC, "(q)"), (0x24AD, "(r)"), (0x24AE, "(s)"), (0x24AF, "(t)"), (0x24B0, "(u)")]

private def spelledOutSecond : List (Nat × String) :=
  [
    (0x24B1, "(v)"), (0x24B2, "(w)"), (0x24B3, "(x)"), (0x24B4, "(y)"), (0x24B5, "(z)"),
    (0x3250, "PTE"), (0x3251, "21"), (0x3252, "22"), (0x3253, "23"), (0x3254, "24"),
    (0x3255, "25"), (0x3256, "26"), (0x3257, "27"), (0x3258, "28"), (0x3259, "29"),
    (0x325A, "30"), (0x325B, "31"), (0x325C, "32"), (0x325D, "33"), (0x325E, "34"),
    (0x325F, "35"), (0x32B1, "36"), (0x32B2, "37"), (0x32B3, "38"), (0x32B4, "39"),
    (0x32B5, "40"), (0x32B6, "41"), (0x32B7, "42"), (0x32B8, "43"), (0x32B9, "44"),
    (0x32BA, "45"), (0x32BB, "46"), (0x32BC, "47"), (0x32BD, "48"), (0x32BE, "49"),
    (0x32BF, "50"), (0x32C0, "1 "), (0x32C1, "2 "), (0x32C2, "3 "), (0x32C3, "4 "),
    (0x32C4, "5 "), (0x32C5, "6 "), (0x32C6, "7 "), (0x32C7, "8 "), (0x32C8, "9 "),
    (0x32C9, "10 "), (0x32CA, "11 "), (0x32CB, "12 "), (0x32CC, "Hg"), (0x32CD, "erg"),
    (0x32CE, "eV"), (0x32CF, "LTD"), (0x3358, "0 "), (0x3359, "1 "), (0x335A, "2 "),
    (0x335B, "3 "), (0x335C, "4 "), (0x335D, "5 "), (0x335E, "6 "), (0x335F, "7 "),
    (0x3360, "8 "), (0x3361, "9 "), (0x3362, "10 "), (0x3363, "11 "), (0x3364, "12 "),
    (0x3365, "13 "), (0x3366, "14 "), (0x3367, "15 "), (0x3368, "16 "), (0x3369, "17 "),
    (0x336A, "18 "), (0x336B, "19 "), (0x336C, "20 "), (0x336D, "21 "), (0x336E, "22 "),
    (0x336F, "23 "), (0x3370, "24 "), (0x3371, "hPa"), (0x3372, "da"), (0x3373, "AU"),
    (0x3374, "bar"), (0x3375, "oV"), (0x3376, "pc"), (0x3377, "dm"), (0x3378, "dm2"),
    (0x3379, "dm3"), (0x337A, "IU"), (0x3380, "pA"), (0x3381, "nA"), (0x3382, " A"),
    (0x3383, "mA"), (0x3384, "kA"), (0x3385, "KB"), (0x3386, "MB"), (0x3387, "GB"),
    (0x3388, "cal"), (0x3389, "kcal"), (0x338A, "pF"), (0x338B, "nF"), (0x338C, " F"),
    (0x338D, " g"), (0x338E, "mg"), (0x338F, "kg"), (0x3390, "Hz"), (0x3391, "kHz"),
    (0x3392, "MHz"), (0x3393, "GHz"), (0x3394, "THz"), (0x3395, " l"), (0x3396, "ml"),
    (0x3397, "dl"), (0x3398, "kl"), (0x3399, "fm"), (0x339A, "nm"), (0x339B, " m"),
    (0x339C, "mm"), (0x339D, "cm"), (0x339E, "km"), (0x339F, "mm2"), (0x33A0, "cm2"),
    (0x33A1, "m2"), (0x33A2, "km2"), (0x33A3, "mm3"), (0x33A4, "cm3"), (0x33A5, "m3"),
    (0x33A6, "km3"), (0x33A7, "m s"), (0x33A8, "m s2"), (0x33A9, "Pa"), (0x33AA, "kPa"),
    (0x33AB, "MPa"), (0x33AC, "GPa"), (0x33AD, "rad"), (0x33AE, "rad s"), (0x33AF, "rad s2"),
    (0x33B0, "ps"), (0x33B1, "ns"), (0x33B2, " s"), (0x33B3, "ms"), (0x33B4, "pV")]

private def spelledOutThird : List (Nat × String) :=
  [
    (0x33B5, "nV"), (0x33B6, " V"), (0x33B7, "mV"), (0x33B8, "kV"), (0x33B9, "MV"),
    (0x33BA, "pW"), (0x33BB, "nW"), (0x33BC, " W"), (0x33BD, "mW"), (0x33BE, "kW"),
    (0x33BF, "MW"), (0x33C0, "k "), (0x33C1, "M "), (0x33C2, "a.m."), (0x33C3, "Bq"),
    (0x33C4, "cc"), (0x33C5, "cd"), (0x33C6, "C kg"), (0x33C7, "Co."), (0x33C8, "dB"),
    (0x33C9, "Gy"), (0x33CA, "ha"), (0x33CB, "HP"), (0x33CC, "in"), (0x33CD, "KK"),
    (0x33CE, "KM"), (0x33CF, "kt"), (0x33D0, "lm"), (0x33D1, "ln"), (0x33D2, "log"),
    (0x33D3, "lx"), (0x33D4, "mb"), (0x33D5, "mil"), (0x33D6, "mol"), (0x33D7, "PH"),
    (0x33D8, "p.m."), (0x33D9, "PPM"), (0x33DA, "PR"), (0x33DB, "sr"), (0x33DC, "Sv"),
    (0x33DD, "Wb"), (0x33DE, "V m"), (0x33DF, "A m"), (0x33E0, "1 "), (0x33E1, "2 "),
    (0x33E2, "3 "), (0x33E3, "4 "), (0x33E4, "5 "), (0x33E5, "6 "), (0x33E6, "7 "),
    (0x33E7, "8 "), (0x33E8, "9 "), (0x33E9, "10 "), (0x33EA, "11 "), (0x33EB, "12 "),
    (0x33EC, "13 "), (0x33ED, "14 "), (0x33EE, "15 "), (0x33EF, "16 "), (0x33F0, "17 "),
    (0x33F1, "18 "), (0x33F2, "19 "), (0x33F3, "20 "), (0x33F4, "21 "), (0x33F5, "22 "),
    (0x33F6, "23 "), (0x33F7, "24 "), (0x33F8, "25 "), (0x33F9, "26 "), (0x33FA, "27 "),
    (0x33FB, "28 "), (0x33FC, "29 "), (0x33FD, "30 "), (0x33FE, "31 "), (0x33FF, "gal"),
    (0xFB00, "ff"), (0xFB01, "fi"), (0xFB02, "fl"), (0xFB03, "ffi"), (0xFB04, "ffl"),
    (0xFB05, "st"), (0xFB06, "st"), (0xFF9E, ""), (0xFF9F, ""), (0x1F100, "0."), (0x1F101, "0,"),
    (0x1F102, "1,"), (0x1F103, "2,"), (0x1F104, "3,"), (0x1F105, "4,"), (0x1F106, "5,"),
    (0x1F107, "6,"), (0x1F108, "7,"), (0x1F109, "8,"), (0x1F10A, "9,"), (0x1F110, "(A)"),
    (0x1F111, "(B)"), (0x1F112, "(C)"), (0x1F113, "(D)"), (0x1F114, "(E)"), (0x1F115, "(F)"),
    (0x1F116, "(G)"), (0x1F117, "(H)"), (0x1F118, "(I)"), (0x1F119, "(J)"), (0x1F11A, "(K)"),
    (0x1F11B, "(L)"), (0x1F11C, "(M)"), (0x1F11D, "(N)"), (0x1F11E, "(O)"), (0x1F11F, "(P)"),
    (0x1F120, "(Q)"), (0x1F121, "(R)"), (0x1F122, "(S)"), (0x1F123, "(T)"), (0x1F124, "(U)"),
    (0x1F125, "(V)"), (0x1F126, "(W)"), (0x1F127, "(X)"), (0x1F128, "(Y)"), (0x1F129, "(Z)"),
    (0x1F12A, " S "), (0x1F12D, "CD"), (0x1F12E, "WZ"), (0x1F14A, "HV"), (0x1F14B, "MV"),
    (0x1F14C, "SD"), (0x1F14D, "SS"), (0x1F14E, "PPV"), (0x1F14F, "WC"), (0x1F16A, "MC"),
    (0x1F16B, "MD"), (0x1F16C, "MR"), (0x1F190, "DJ")]

/-- The characters that decompose into several characters, or into marks only, with what is left of them. -/
def spelledOut : List (Nat × String) :=
  spelledOutFirst ++ spelledOutSecond ++ spelledOutThird

/-- The other case of an ASCII letter. -/
private def otherCase (c : Char) : Char :=
  if c.isUpper then c.toLower else c.toUpper

/-- The base letter of the code point `n` if `r` covers it. -/
def Run.letterAt? (r : Run) (n : Nat) : Option Char :=
  if r.start ≤ n && n < r.start + r.count then
    match r.course with
    | .same => some r.letter
    | .next => some (Char.ofNat (r.letter.toNat + (n - r.start)))
    | .paired => some (if (n - r.start) % 2 = 0 then r.letter else otherCase r.letter)
  else none

/-- What is left of one character. -/
def foldChar (c : Char) : List Char :=
  if c.toNat < 0x80 then [c]
  else if Mark.isMark c then []
  else match runs.findSome? (·.letterAt? c.toNat) with
    | some b => [b]
    | none => match spelledOut.lookup c.toNat with
      | some s => s.toList
      | none => [' ']

/-- The text reduced to ASCII, character by character. -/
def fold (cs : List Char) : List Char := cs.flatMap foldChar

end IrDialects.Text.BaseLetter
