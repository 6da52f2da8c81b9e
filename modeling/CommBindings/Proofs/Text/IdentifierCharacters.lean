import CommBindings.Proofs.Text.LetterCase
import CommBindings.Text.Digit
import CommBindings.Text.Word

set_option autoImplicit false

/-! # Characters of identifiers

The characters that identifiers of Unicode 14 begin with and hold (`XID_Start` and `XID_Continue`).
Rust and Python take these, and TypeScript takes these and a few more. Not every word character is one
of them: most numbers that are no digits of ten are stray (`mayContinue_of_word`), and a few letters may
only follow others (`mayBegin_of_word`). Upper case neither brings such characters in nor takes them away
(`isKept_of_outside`).
-/

namespace CommBindings.Text

/-! ## Tables -/

/-- The characters with which an identifier may begin, the low line aside, as code point ranges in
ascending order. -/
def beginRanges : List (Nat × Nat) := [
  (65, 90), (97, 122), (170, 170), (181, 181), (186, 186), (192, 214), (216, 246), (248, 705),
  (710, 721), (736, 740), (748, 748), (750, 750), (880, 884), (886, 887), (891, 893), (895, 895),
  (902, 902), (904, 906), (908, 908), (910, 929), (931, 1013), (1015, 1153), (1162, 1327),
  (1329, 1366), (1369, 1369), (1376, 1416), (1488, 1514), (1519, 1522), (1568, 1610),
  (1646, 1647), (1649, 1747), (1749, 1749), (1765, 1766), (1774, 1775), (1786, 1788),
  (1791, 1791), (1808, 1808), (1810, 1839), (1869, 1957), (1969, 1969), (1994, 2026),
  (2036, 2037), (2042, 2042), (2048, 2069), (2074, 2074), (2084, 2084), (2088, 2088),
  (2112, 2136), (2144, 2154), (2160, 2183), (2185, 2190), (2208, 2249), (2308, 2361),
  (2365, 2365), (2384, 2384), (2392, 2401), (2417, 2432), (2437, 2444), (2447, 2448),
  (2451, 2472), (2474, 2480), (2482, 2482), (2486, 2489), (2493, 2493), (2510, 2510),
  (2524, 2525), (2527, 2529), (2544, 2545), (2556, 2556), (2565, 2570), (2575, 2576),
  (2579, 2600), (2602, 2608), (2610, 2611), (2613, 2614), (2616, 2617), (2649, 2652),
  (2654, 2654), (2674, 2676), (2693, 2701), (2703, 2705), (2707, 2728), (2730, 2736),
  (2738, 2739), (2741, 2745), (2749, 2749), (2768, 2768), (2784, 2785), (2809, 2809),
  (2821, 2828), (2831, 2832), (2835, 2856), (2858, 2864), (2866, 2867), (2869, 2873),
  (2877, 2877), (2908, 2909), (2911, 2913), (2929, 2929), (2947, 2947), (2949, 2954),
  (2958, 2960), (2962, 2965), (2969, 2970), (2972, 2972), (2974, 2975), (2979, 2980),
  (2984, 2986), (2990, 3001), (3024, 3024), (3077, 3084), (3086, 3088), (3090, 3112),
  (3114, 3129), (3133, 3133), (3160, 3162), (3165, 3165), (3168, 3169), (3200, 3200),
  (3205, 3212), (3214, 3216), (3218, 3240), (3242, 3251), (3253, 3257), (3261, 3261),
  (3293, 3294), (3296, 3297), (3313, 3314), (3332, 3340), (3342, 3344), (3346, 3386),
  (3389, 3389), (3406, 3406), (3412, 3414), (3423, 3425), (3450, 3455), (3461, 3478),
  (3482, 3505), (3507, 3515), (3517, 3517), (3520, 3526), (3585, 3632), (3634, 3634),
  (3648, 3654), (3713, 3714), (3716, 3716), (3718, 3722), (3724, 3747), (3749, 3749),
  (3751, 3760), (3762, 3762), (3773, 3773), (3776, 3780), (3782, 3782), (3804, 3807),
  (3840, 3840), (3904, 3911), (3913, 3948), (3976, 3980), (4096, 4138), (4159, 4159),
  (4176, 4181), (4186, 4189), (4193, 4193), (4197, 4198), (4206, 4208), (4213, 4225),
  (4238, 4238), (4256, 4293), (4295, 4295), (4301, 4301), (4304, 4346), (4348, 4680),
  (4682, 4685), (4688, 4694), (4696, 4696), (4698, 4701), (4704, 4744), (4746, 4749),
  (4752, 4784), (4786, 4789), (4792, 4798), (4800, 4800), (4802, 4805), (4808, 4822),
  (4824, 4880), (4882, 4885), (4888, 4954), (4992, 5007), (5024, 5109), (5112, 5117),
  (5121, 5740), (5743, 5759), (5761, 5786), (5792, 5866), (5870, 5880), (5888, 5905),
  (5919, 5937), (5952, 5969), (5984, 5996), (5998, 6000), (6016, 6067), (6103, 6103),
  (6108, 6108), (6176, 6264), (6272, 6312), (6314, 6314), (6320, 6389), (6400, 6430),
  (6480, 6509), (6512, 6516), (6528, 6571), (6576, 6601), (6656, 6678), (6688, 6740),
  (6823, 6823), (6917, 6963), (6981, 6988), (7043, 7072), (7086, 7087), (7098, 7141),
  (7168, 7203), (7245, 7247), (7258, 7293), (7296, 7304), (7312, 7354), (7357, 7359),
  (7401, 7404), (7406, 7411), (7413, 7414), (7418, 7418), (7424, 7615), (7680, 7957),
  (7960, 7965), (7968, 8005), (8008, 8013), (8016, 8023), (8025, 8025), (8027, 8027),
  (8029, 8029), (8031, 8061), (8064, 8116), (8118, 8124), (8126, 8126), (8130, 8132),
  (8134, 8140), (8144, 8147), (8150, 8155), (8160, 8172), (8178, 8180), (8182, 8188),
  (8305, 8305), (8319, 8319), (8336, 8348), (8450, 8450), (8455, 8455), (8458, 8467),
  (8469, 8469), (8472, 8477), (8484, 8484), (8486, 8486), (8488, 8488), (8490, 8505),
  (8508, 8511), (8517, 8521), (8526, 8526), (8544, 8584), (11264, 11492), (11499, 11502),
  (11506, 11507), (11520, 11557), (11559, 11559), (11565, 11565), (11568, 11623), (11631, 11631),
  (11648, 11670), (11680, 11686), (11688, 11694), (11696, 11702), (11704, 11710), (11712, 11718),
  (11720, 11726), (11728, 11734), (11736, 11742), (12293, 12295), (12321, 12329), (12337, 12341),
  (12344, 12348), (12353, 12438), (12445, 12447), (12449, 12538), (12540, 12543), (12549, 12591),
  (12593, 12686), (12704, 12735), (12784, 12799), (13312, 19903), (19968, 42124), (42192, 42237),
  (42240, 42508), (42512, 42527), (42538, 42539), (42560, 42606), (42623, 42653), (42656, 42735),
  (42775, 42783), (42786, 42888), (42891, 42954), (42960, 42961), (42963, 42963), (42965, 42969),
  (42994, 43009), (43011, 43013), (43015, 43018), (43020, 43042), (43072, 43123), (43138, 43187),
  (43250, 43255), (43259, 43259), (43261, 43262), (43274, 43301), (43312, 43334), (43360, 43388),
  (43396, 43442), (43471, 43471), (43488, 43492), (43494, 43503), (43514, 43518), (43520, 43560),
  (43584, 43586), (43588, 43595), (43616, 43638), (43642, 43642), (43646, 43695), (43697, 43697),
  (43701, 43702), (43705, 43709), (43712, 43712), (43714, 43714), (43739, 43741), (43744, 43754),
  (43762, 43764), (43777, 43782), (43785, 43790), (43793, 43798), (43808, 43814), (43816, 43822),
  (43824, 43866), (43868, 43881), (43888, 44002), (44032, 55203), (55216, 55238), (55243, 55291),
  (63744, 64109), (64112, 64217), (64256, 64262), (64275, 64279), (64285, 64285), (64287, 64296),
  (64298, 64310), (64312, 64316), (64318, 64318), (64320, 64321), (64323, 64324), (64326, 64433),
  (64467, 64605), (64612, 64829), (64848, 64911), (64914, 64967), (65008, 65017), (65137, 65137),
  (65139, 65139), (65143, 65143), (65145, 65145), (65147, 65147), (65149, 65149), (65151, 65276),
  (65313, 65338), (65345, 65370), (65382, 65437), (65440, 65470), (65474, 65479), (65482, 65487),
  (65490, 65495), (65498, 65500), (65536, 65547), (65549, 65574), (65576, 65594), (65596, 65597),
  (65599, 65613), (65616, 65629), (65664, 65786), (65856, 65908), (66176, 66204), (66208, 66256),
  (66304, 66335), (66349, 66378), (66384, 66421), (66432, 66461), (66464, 66499), (66504, 66511),
  (66513, 66517), (66560, 66717), (66736, 66771), (66776, 66811), (66816, 66855), (66864, 66915),
  (66928, 66938), (66940, 66954), (66956, 66962), (66964, 66965), (66967, 66977), (66979, 66993),
  (66995, 67001), (67003, 67004), (67072, 67382), (67392, 67413), (67424, 67431), (67456, 67461),
  (67463, 67504), (67506, 67514), (67584, 67589), (67592, 67592), (67594, 67637), (67639, 67640),
  (67644, 67644), (67647, 67669), (67680, 67702), (67712, 67742), (67808, 67826), (67828, 67829),
  (67840, 67861), (67872, 67897), (67968, 68023), (68030, 68031), (68096, 68096), (68112, 68115),
  (68117, 68119), (68121, 68149), (68192, 68220), (68224, 68252), (68288, 68295), (68297, 68324),
  (68352, 68405), (68416, 68437), (68448, 68466), (68480, 68497), (68608, 68680), (68736, 68786),
  (68800, 68850), (68864, 68899), (69248, 69289), (69296, 69297), (69376, 69404), (69415, 69415),
  (69424, 69445), (69488, 69505), (69552, 69572), (69600, 69622), (69635, 69687), (69745, 69746),
  (69749, 69749), (69763, 69807), (69840, 69864), (69891, 69926), (69956, 69956), (69959, 69959),
  (69968, 70002), (70006, 70006), (70019, 70066), (70081, 70084), (70106, 70106), (70108, 70108),
  (70144, 70161), (70163, 70187), (70272, 70278), (70280, 70280), (70282, 70285), (70287, 70301),
  (70303, 70312), (70320, 70366), (70405, 70412), (70415, 70416), (70419, 70440), (70442, 70448),
  (70450, 70451), (70453, 70457), (70461, 70461), (70480, 70480), (70493, 70497), (70656, 70708),
  (70727, 70730), (70751, 70753), (70784, 70831), (70852, 70853), (70855, 70855), (71040, 71086),
  (71128, 71131), (71168, 71215), (71236, 71236), (71296, 71338), (71352, 71352), (71424, 71450),
  (71488, 71494), (71680, 71723), (71840, 71903), (71935, 71942), (71945, 71945), (71948, 71955),
  (71957, 71958), (71960, 71983), (71999, 71999), (72001, 72001), (72096, 72103), (72106, 72144),
  (72161, 72161), (72163, 72163), (72192, 72192), (72203, 72242), (72250, 72250), (72272, 72272),
  (72284, 72329), (72349, 72349), (72368, 72440), (72704, 72712), (72714, 72750), (72768, 72768),
  (72818, 72847), (72960, 72966), (72968, 72969), (72971, 73008), (73030, 73030), (73056, 73061),
  (73063, 73064), (73066, 73097), (73112, 73112), (73440, 73458), (73648, 73648), (73728, 74649),
  (74752, 74862), (74880, 75075), (77712, 77808), (77824, 78894), (82944, 83526), (92160, 92728),
  (92736, 92766), (92784, 92862), (92880, 92909), (92928, 92975), (92992, 92995), (93027, 93047),
  (93053, 93071), (93760, 93823), (93952, 94026), (94032, 94032), (94099, 94111), (94176, 94177),
  (94179, 94179), (94208, 100343), (100352, 101589), (101632, 101640), (110576, 110579),
  (110581, 110587), (110589, 110590), (110592, 110882), (110928, 110930), (110948, 110951),
  (110960, 111355), (113664, 113770), (113776, 113788), (113792, 113800), (113808, 113817),
  (119808, 119892), (119894, 119964), (119966, 119967), (119970, 119970), (119973, 119974),
  (119977, 119980), (119982, 119993), (119995, 119995), (119997, 120003), (120005, 120069),
  (120071, 120074), (120077, 120084), (120086, 120092), (120094, 120121), (120123, 120126),
  (120128, 120132), (120134, 120134), (120138, 120144), (120146, 120485), (120488, 120512),
  (120514, 120538), (120540, 120570), (120572, 120596), (120598, 120628), (120630, 120654),
  (120656, 120686), (120688, 120712), (120714, 120744), (120746, 120770), (120772, 120779),
  (122624, 122654), (123136, 123180), (123191, 123197), (123214, 123214), (123536, 123565),
  (123584, 123627), (124896, 124902), (124904, 124907), (124909, 124910), (124912, 124926),
  (124928, 125124), (125184, 125251), (125259, 125259), (126464, 126467), (126469, 126495),
  (126497, 126498), (126500, 126500), (126503, 126503), (126505, 126514), (126516, 126519),
  (126521, 126521), (126523, 126523), (126530, 126530), (126535, 126535), (126537, 126537),
  (126539, 126539), (126541, 126543), (126545, 126546), (126548, 126548), (126551, 126551),
  (126553, 126553), (126555, 126555), (126557, 126557), (126559, 126559), (126561, 126562),
  (126564, 126564), (126567, 126570), (126572, 126578), (126580, 126583), (126585, 126588),
  (126590, 126590), (126592, 126601), (126603, 126619), (126625, 126627), (126629, 126633),
  (126635, 126651), (131072, 173791), (173824, 177976), (177984, 178205), (178208, 183969),
  (183984, 191456), (194560, 195101), (196608, 201546)]

/-- The characters that may stand in an identifier, but at its start, as code point ranges in ascending
order. -/
def laterRanges : List (Nat × Nat) := [
  (48, 57), (95, 95), (183, 183), (768, 879), (903, 903), (1155, 1159), (1425, 1469),
  (1471, 1471), (1473, 1474), (1476, 1477), (1479, 1479), (1552, 1562), (1611, 1641),
  (1648, 1648), (1750, 1756), (1759, 1764), (1767, 1768), (1770, 1773), (1776, 1785),
  (1809, 1809), (1840, 1866), (1958, 1968), (1984, 1993), (2027, 2035), (2045, 2045),
  (2070, 2073), (2075, 2083), (2085, 2087), (2089, 2093), (2137, 2139), (2200, 2207),
  (2250, 2273), (2275, 2307), (2362, 2364), (2366, 2383), (2385, 2391), (2402, 2403),
  (2406, 2415), (2433, 2435), (2492, 2492), (2494, 2500), (2503, 2504), (2507, 2509),
  (2519, 2519), (2530, 2531), (2534, 2543), (2558, 2558), (2561, 2563), (2620, 2620),
  (2622, 2626), (2631, 2632), (2635, 2637), (2641, 2641), (2662, 2673), (2677, 2677),
  (2689, 2691), (2748, 2748), (2750, 2757), (2759, 2761), (2763, 2765), (2786, 2787),
  (2790, 2799), (2810, 2815), (2817, 2819), (2876, 2876), (2878, 2884), (2887, 2888),
  (2891, 2893), (2901, 2903), (2914, 2915), (2918, 2927), (2946, 2946), (3006, 3010),
  (3014, 3016), (3018, 3021), (3031, 3031), (3046, 3055), (3072, 3076), (3132, 3132),
  (3134, 3140), (3142, 3144), (3146, 3149), (3157, 3158), (3170, 3171), (3174, 3183),
  (3201, 3203), (3260, 3260), (3262, 3268), (3270, 3272), (3274, 3277), (3285, 3286),
  (3298, 3299), (3302, 3311), (3328, 3331), (3387, 3388), (3390, 3396), (3398, 3400),
  (3402, 3405), (3415, 3415), (3426, 3427), (3430, 3439), (3457, 3459), (3530, 3530),
  (3535, 3540), (3542, 3542), (3544, 3551), (3558, 3567), (3570, 3571), (3633, 3633),
  (3635, 3642), (3655, 3662), (3664, 3673), (3761, 3761), (3763, 3772), (3784, 3789),
  (3792, 3801), (3864, 3865), (3872, 3881), (3893, 3893), (3895, 3895), (3897, 3897),
  (3902, 3903), (3953, 3972), (3974, 3975), (3981, 3991), (3993, 4028), (4038, 4038),
  (4139, 4158), (4160, 4169), (4182, 4185), (4190, 4192), (4194, 4196), (4199, 4205),
  (4209, 4212), (4226, 4237), (4239, 4253), (4957, 4959), (4969, 4977), (5906, 5909),
  (5938, 5940), (5970, 5971), (6002, 6003), (6068, 6099), (6109, 6109), (6112, 6121),
  (6155, 6157), (6159, 6169), (6313, 6313), (6432, 6443), (6448, 6459), (6470, 6479),
  (6608, 6618), (6679, 6683), (6741, 6750), (6752, 6780), (6783, 6793), (6800, 6809),
  (6832, 6845), (6847, 6862), (6912, 6916), (6964, 6980), (6992, 7001), (7019, 7027),
  (7040, 7042), (7073, 7085), (7088, 7097), (7142, 7155), (7204, 7223), (7232, 7241),
  (7248, 7257), (7376, 7378), (7380, 7400), (7405, 7405), (7412, 7412), (7415, 7417),
  (7616, 7679), (8255, 8256), (8276, 8276), (8400, 8412), (8417, 8417), (8421, 8432),
  (11503, 11505), (11647, 11647), (11744, 11775), (12330, 12335), (12441, 12442), (42528, 42537),
  (42607, 42607), (42612, 42621), (42654, 42655), (42736, 42737), (43010, 43010), (43014, 43014),
  (43019, 43019), (43043, 43047), (43052, 43052), (43136, 43137), (43188, 43205), (43216, 43225),
  (43232, 43249), (43263, 43273), (43302, 43309), (43335, 43347), (43392, 43395), (43443, 43456),
  (43472, 43481), (43493, 43493), (43504, 43513), (43561, 43574), (43587, 43587), (43596, 43597),
  (43600, 43609), (43643, 43645), (43696, 43696), (43698, 43700), (43703, 43704), (43710, 43711),
  (43713, 43713), (43755, 43759), (43765, 43766), (44003, 44010), (44012, 44013), (44016, 44025),
  (64286, 64286), (65024, 65039), (65056, 65071), (65075, 65076), (65101, 65103), (65296, 65305),
  (65343, 65343), (65438, 65439), (66045, 66045), (66272, 66272), (66422, 66426), (66720, 66729),
  (68097, 68099), (68101, 68102), (68108, 68111), (68152, 68154), (68159, 68159), (68325, 68326),
  (68900, 68903), (68912, 68921), (69291, 69292), (69446, 69456), (69506, 69509), (69632, 69634),
  (69688, 69702), (69734, 69744), (69747, 69748), (69759, 69762), (69808, 69818), (69826, 69826),
  (69872, 69881), (69888, 69890), (69927, 69940), (69942, 69951), (69957, 69958), (70003, 70003),
  (70016, 70018), (70067, 70080), (70089, 70092), (70094, 70105), (70188, 70199), (70206, 70206),
  (70367, 70378), (70384, 70393), (70400, 70403), (70459, 70460), (70462, 70468), (70471, 70472),
  (70475, 70477), (70487, 70487), (70498, 70499), (70502, 70508), (70512, 70516), (70709, 70726),
  (70736, 70745), (70750, 70750), (70832, 70851), (70864, 70873), (71087, 71093), (71096, 71104),
  (71132, 71133), (71216, 71232), (71248, 71257), (71339, 71351), (71360, 71369), (71453, 71467),
  (71472, 71481), (71724, 71738), (71904, 71913), (71984, 71989), (71991, 71992), (71995, 71998),
  (72000, 72000), (72002, 72003), (72016, 72025), (72145, 72151), (72154, 72160), (72164, 72164),
  (72193, 72202), (72243, 72249), (72251, 72254), (72263, 72263), (72273, 72283), (72330, 72345),
  (72751, 72758), (72760, 72767), (72784, 72793), (72850, 72871), (72873, 72886), (73009, 73014),
  (73018, 73018), (73020, 73021), (73023, 73029), (73031, 73031), (73040, 73049), (73098, 73102),
  (73104, 73105), (73107, 73111), (73120, 73129), (73459, 73462), (92768, 92777), (92864, 92873),
  (92912, 92916), (92976, 92982), (93008, 93017), (94031, 94031), (94033, 94087), (94095, 94098),
  (94180, 94180), (94192, 94193), (113821, 113822), (118528, 118573), (118576, 118598),
  (119141, 119145), (119149, 119154), (119163, 119170), (119173, 119179), (119210, 119213),
  (119362, 119364), (120782, 120831), (121344, 121398), (121403, 121452), (121461, 121461),
  (121476, 121476), (121499, 121503), (121505, 121519), (122880, 122886), (122888, 122904),
  (122907, 122913), (122915, 122916), (122918, 122922), (123184, 123190), (123200, 123209),
  (123566, 123566), (123628, 123641), (125136, 125142), (125252, 125258), (125264, 125273),
  (130032, 130041), (917760, 917999)]

/-- The word characters that no identifier may hold, as code point ranges in ascending order. -/
def strayRanges : List (Nat × Nat) := [
  (178, 179), (185, 185), (188, 190), (890, 890), (2548, 2553), (2930, 2935), (3056, 3058),
  (3192, 3198), (3416, 3422), (3440, 3448), (3882, 3891), (4978, 4988), (6128, 6137),
  (8304, 8304), (8308, 8313), (8320, 8329), (8528, 8543), (8585, 8585), (9312, 9371),
  (9450, 9471), (10102, 10131), (11517, 11517), (11823, 11823), (12690, 12693), (12832, 12841),
  (12872, 12879), (12881, 12895), (12928, 12937), (12977, 12991), (43056, 43061), (64606, 64611),
  (65018, 65019), (65136, 65136), (65138, 65138), (65140, 65140), (65142, 65142), (65144, 65144),
  (65146, 65146), (65148, 65148), (65150, 65150), (65799, 65843), (65909, 65912), (65930, 65931),
  (66273, 66299), (66336, 66339), (67672, 67679), (67705, 67711), (67751, 67759), (67835, 67839),
  (67862, 67867), (68028, 68029), (68032, 68047), (68050, 68095), (68160, 68168), (68221, 68222),
  (68253, 68255), (68331, 68335), (68440, 68447), (68472, 68479), (68521, 68527), (68858, 68863),
  (69216, 69246), (69405, 69414), (69457, 69460), (69573, 69579), (69714, 69733), (70113, 70132),
  (71482, 71483), (71914, 71922), (72794, 72812), (73664, 73684), (93019, 93025), (93824, 93846),
  (119520, 119539), (119648, 119672), (125127, 125135), (126065, 126123), (126125, 126127),
  (126129, 126132), (126209, 126253), (126255, 126269), (127232, 127244)]

/-- The letters that may stand in an identifier, but at its start. -/
def followerRanges : List (Nat × Nat) := [(3635, 3635), (3763, 3763), (65438, 65439)]

/-- A character with which an identifier may begin. -/
def mayBegin (c : Char) : Bool := covers beginRanges c || c = '_'

/-- A character that an identifier may hold. -/
def mayContinue (c : Char) : Bool := covers beginRanges c || covers laterRanges c

/-- A word character that no identifier may hold. -/
def isStray (c : Char) : Bool := covers strayRanges c

/-- A letter that an identifier may hold, but not begin with. -/
def isFollower (c : Char) : Bool := covers followerRanges c

/-! ## Word characters in identifiers -/

/-- How the tables of word characters and of identifiers lie to one another. -/
theorem word_tables :
    Within (rangeSet wordRanges) (rangeSet (beginRanges ++ laterRanges ++ strayRanges)) ∧
      Within (rangeSet wordRanges)
        (rangeSet (beginRanges ++ [(95, 95)] ++ digitRanges ++ strayRanges ++ followerRanges)) ∧
      Within (rangeSet (strayRanges ++ followerRanges)) (rangeSet wordRanges) ∧
      Apart (rangeSet strayRanges) (rangeSet (beginRanges ++ laterRanges)) ∧
      Apart (rangeSet followerRanges) (rangeSet (beginRanges ++ [(95, 95)] ++ digitRanges)) := by
  decide +kernel

/-- A stray character or a follower. -/
def isOutside (c : Char) : Bool := isStray c || isFollower c

theorem isOutside_of_isStray {c : Char} (h : isStray c = true) : isOutside c = true := by
  rw [isOutside, h, Bool.true_or]

theorem isOutside_of_isFollower {c : Char} (h : isFollower c = true) : isOutside c = true := by
  rw [isOutside, h, Bool.or_true]

theorem isWord_of_isOutside {c : Char} (h : isOutside c = true) : isWord c = true :=
  covers_of_within word_tables.2.2.1 ((covers_append _ _ c).trans h)

/-- An identifier may hold a word character exactly if it is not stray. -/
theorem mayContinue_of_word {c : Char} (h : isWord c = true) : mayContinue c = !isStray c := by
  obtain ⟨hWithin, -, -, hApart, -⟩ := word_tables
  have hOne := covers_of_within hWithin h
  rw [covers_append, covers_append] at hOne
  cases hStray : isStray c with
  | true =>
      have hNone := covers_apart hApart hStray
      rw [covers_append] at hNone
      exact hNone
  | false =>
      have hOther : covers strayRanges c = false := hStray
      rw [hOther, Bool.or_false] at hOne
      exact hOne

theorem mayBegin_eq (c : Char) : mayBegin c = covers (beginRanges ++ [(95, 95)]) c := by
  rw [covers_append, mayBegin]
  refine congrArg (covers beginRanges c || ·) (Bool.eq_iff_iff.mpr ?_)
  rw [decide_eq_true_eq]
  constructor
  · rintro rfl
    decide
  · exact eq_of_covers

/-- A follower is no digit, and no identifier begins with it. -/
theorem isFollower_apart {c : Char} (h : isFollower c = true) :
    mayBegin c = false ∧ isDigit c = false := by
  obtain ⟨-, -, -, -, hApart⟩ := word_tables
  have hNone := covers_apart hApart h
  rw [covers_append, Bool.or_eq_false_iff, ← mayBegin_eq] at hNone
  exact hNone

/-- An identifier may begin with a word character that is no digit and not stray exactly if it is no
follower. -/
theorem mayBegin_of_word {c : Char} (h : isWord c = true) (hDigit : isDigit c = false)
    (hStray : isStray c = false) : mayBegin c = !isFollower c := by
  obtain ⟨-, hWithin, -⟩ := word_tables
  cases hFollower : isFollower c with
  | true => exact (isFollower_apart hFollower).1
  | false =>
      have hOne := covers_of_within hWithin h
      have hNoDigit : covers digitRanges c = false := hDigit
      have hNoStray : covers strayRanges c = false := hStray
      have hNoFollower : covers followerRanges c = false := hFollower
      rw [covers_append, covers_append, covers_append, hNoDigit, hNoStray, hNoFollower, Bool.or_false,
        Bool.or_false, Bool.or_false, ← mayBegin_eq] at hOne
      exact hOne

/-! ## Upper case -/

/-- The letters in circles: capitals, and small letters, of which they are the upper case. -/
def circledRanges : List (Nat × Nat) := [(9398, 9423), (9424, 9449)]

/-- How the tables of upper case and of word characters lie to one another. The one lower-case character
that is stray or a follower is the Greek ypogegrammeni, which has no upper case. Letters in circles are
the one part of the upper case that lies outside the word characters, and with the combining iota they
are those of the lower-case characters. -/
theorem upper_tables :
    rangeSet lowercaseRanges &&& rangeSet (strayRanges ++ followerRanges) = rangeSet [(890, 890)] ∧
      Apart (rangeSet [(0, 127)]) (rangeSet (strayRanges ++ followerRanges)) ∧
      Apart (codeSet upperCodes) (rangeSet (strayRanges ++ followerRanges)) ∧
      Apart (rangeSet circledRanges) (rangeSet wordRanges) ∧
      Within (codeSet (upperRuns.flatMap CaseRun.images)) (rangeSet (wordRanges ++ [(9398, 9423)])) ∧
      Within (rangeSet lowercaseRanges) (rangeSet (wordRanges ++ [(837, 837)] ++ [(9424, 9449)])) := by
  decide +kernel

/-- A property of characters beyond ASCII that upper case neither takes away nor brings in. -/
structure IsKept (p : Char → Bool) : Prop where
  plain : ∀ c : Char, c.toNat < 128 → p c = false
  fixed : ∀ c, isLowercase c = true → p c = true → upperOf c = [c]
  upper : ∀ c, p c = false → ∀ d ∈ upperOf c, p d = false

theorem isKept_of_outside {p : Char → Bool} (hp : ∀ c, p c = true → isOutside c = true) : IsKept p := by
  obtain ⟨hLowercase, hPlain, hUpper, -⟩ := upper_tables
  have hOut : ∀ c, covers (strayRanges ++ followerRanges) c = false → p c = false := fun c hNone =>
    Bool.eq_false_of_not_eq_true fun hc => by
      rw [covers_append] at hNone
      exact absurd ((hp c hc).symm.trans hNone) (Bool.false_ne_true ·.symm)
  constructor
  case plain =>
    intro c hc
    refine hOut c (covers_apart hPlain (covers_eq_true_iff.mpr ⟨(0, 127), List.mem_cons_self, ?_⟩))
    exact ⟨Nat.zero_le _, Nat.le_of_lt_succ hc⟩
  case fixed =>
    intro c hLower hc
    have hBit := congrArg (Nat.testBit · c.toNat) hLowercase
    have hBoth : covers lowercaseRanges c = true := hLower
    have hOne : covers (strayRanges ++ followerRanges) c = true := (covers_append _ _ c).trans (hp c hc)
    simp only [Nat.testBit_and, testBit_rangeSet, hBoth, hOne, Bool.and_self] at hBit
    rw [eq_of_covers hBit.symm]
    decide
  case upper =>
    intro c hc
    rcases upperOf_cases c with hSame | ⟨first, rest, -, -, hCodes⟩
    · rw [hSame]
      exact List.forall_mem_singleton.mpr hc
    · exact fun d hd => hOut d (not_covers_of_apart hUpper (hCodes d hd))

/-! ## Letters in circles -/

/-- One run has the small letters in circles, and no other meets the letters in circles. -/
theorem circled_runs : ∀ run ∈ upperRuns,
    run.first = 9424 ∧ run.last = 9449 ∧ run.distance = -26 ∨
      (run.last + run.distance < 9398 ∨ 9423 < run.first + run.distance) ∧
        (run.last < 9424 ∨ 9449 < run.first) := by
  decide +kernel

theorem not_isWord_of_circled {c : Char} (hFirst : 9398 ≤ c.toNat) (hLast : c.toNat ≤ 9449) :
    isWord c = false := by
  obtain ⟨-, -, -, hApart, -⟩ := upper_tables
  refine covers_apart hApart (covers_eq_true_iff.mpr ?_)
  by_cases hCapital : c.toNat ≤ 9423
  · exact ⟨(9398, 9423), List.mem_cons_self, hFirst, hCapital⟩
  · exact ⟨(9424, 9449), List.mem_cons_of_mem _ List.mem_cons_self, by omega, hLast⟩

/-- The upper case of a word character is not a single character that is none. -/
theorem isWord_upperOf {c d : Char} (hc : isWord c = true) (h : upperOf c = [d]) : isWord d = true := by
  by_contra hOther
  have hNoWord : covers wordRanges d = false := Bool.eq_false_of_not_eq_true hOther
  rcases upperOf_single h with rfl | ⟨run, hRun, hHolds, hCode, hImage⟩
  · exact hOther hc
  · obtain ⟨-, -, -, -, hWithin, -⟩ := upper_tables
    have hCircle := covers_of_codes hWithin hImage
    rw [covers_append, hNoWord, Bool.false_or] at hCircle
    obtain ⟨range, hRange, hFirst, hLast⟩ := covers_eq_true_iff.mp hCircle
    rw [List.mem_singleton.mp hRange] at hFirst hLast
    obtain ⟨hFrom, hTo⟩ := bounds_of_holds hHolds
    have hNone : isWord c = false := by
      rcases circled_runs run hRun with ⟨hFirst', hLast', -⟩ | ⟨hImages, -⟩
      · exact not_isWord_of_circled (by omega) (by omega)
      · omega
    rw [hNone] at hc
    cases hc

/-- The upper case of a small letter in a circle is no word character. -/
theorem upperOf_circled {c : Char} (h : covers [(9424, 9449)] c = true) :
    ∃ d, upperOf c = [d] ∧ isWord d = false := by
  obtain ⟨range, hRange, hFirst, hLast⟩ := covers_eq_true_iff.mp h
  rw [List.mem_singleton.mp hRange] at hFirst hLast
  simp only at hFirst hLast
  rcases upperOf_inversion c with hSame | ⟨entry, hMem, hKey, -⟩ | ⟨run, hRun, hHolds, hUpper⟩
  · exact ⟨c, hSame, not_isWord_of_circled (by omega) hLast⟩
  · have hKeys : ∀ entry ∈ upperSequences, entry.1 < 9424 ∨ 9449 < entry.1 := by
      decide
    have hApart := hKeys entry hMem
    omega
  · obtain ⟨hFrom, hTo⟩ := bounds_of_holds hHolds
    obtain ⟨hCode, -⟩ := image_of_run hRun hHolds
    refine ⟨_, hUpper, ?_⟩
    rcases circled_runs run hRun with ⟨-, -, hDistance⟩ | ⟨-, hSources⟩
    · exact not_isWord_of_circled (by omega) (by omega)
    · omega

/-- A lower-case character that is no word character is the combining iota or a letter in a circle. -/
theorem circled_of_lowercase {c : Char} (hLower : isLowercase c = true) (hOther : isWord c = false) :
    c = '\u0345' ∨ covers [(9424, 9449)] c = true := by
  obtain ⟨-, -, -, -, -, hWithin⟩ := upper_tables
  have hOne := covers_of_within hWithin hLower
  have hNoWord : covers wordRanges c = false := hOther
  rw [covers_append, covers_append, hNoWord, Bool.false_or, Bool.or_eq_true] at hOne
  exact hOne.imp_left eq_of_covers

end CommBindings.Text
