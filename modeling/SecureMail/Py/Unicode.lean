/-!
# The character database behind `str`

`str.upper`, `str.lower`, `str.isupper`, `str.isdigit`, `str.split` and `str.strip` answer by
Unicode property, not by ASCII range, and an analyzer log may hold any of these characters. The
tables below are the properties those six methods read, at the version of the database the
interpreter ships (15.1). Everything at or below U+007F is decided by arithmetic, so the case tables
list only what is above it.

A case table is a list of *strides*: `(lo, hi, step, image)` sends `lo + k * step`, as long as it
does not pass `hi`, to `image + k * step`. The full mapping of a character may be longer than one
character, and the few that are stand in their own list.

One mapping is not of a character alone: a capital sigma goes to `ς` where it ends a word and to `σ`
elsewhere. What is before and after it is told by two more tables, of the characters that have case
and of those the search for one passes over.
-/

namespace SecureMail
namespace Py

/-- One row of a case table: `lo`, `hi`, `step`, and the image of `lo`. -/
abbrev Stride := Nat × Nat × Nat × Nat

/-- `cp` is one of the code points the row lists. -/
def Stride.covers (s : Stride) (cp : Nat) : Bool :=
  s.1 ≤ cp && cp ≤ s.2.1 && (cp - s.1) % s.2.2.1 == 0

/-- Where a table sends a code point. A code point no row covers is its own image. -/
def mapThrough (table : List Stride) (cp : Nat) : Nat :=
  match table.find? (·.covers cp) with
  | some s => s.2.2.2 + (cp - s.1)
  | none => cp

/-- Simple upper-case mappings above U+007F. -/
def upperStrides : List Stride :=
  [(181, 181, 1, 924), (224, 246, 1, 192), (248, 254, 1, 216), (255, 255, 1, 376),
   (257, 303, 2, 256), (305, 305, 1, 73), (307, 311, 2, 306), (314, 328, 2, 313),
   (331, 375, 2, 330), (378, 382, 2, 377), (383, 383, 1, 83), (384, 384, 1, 579),
   (387, 389, 2, 386), (392, 392, 1, 391), (396, 396, 1, 395), (402, 402, 1, 401),
   (405, 405, 1, 502), (409, 409, 1, 408), (410, 410, 1, 573), (414, 414, 1, 544),
   (417, 421, 2, 416), (424, 424, 1, 423), (429, 429, 1, 428), (432, 432, 1, 431),
   (436, 438, 2, 435), (441, 441, 1, 440), (445, 445, 1, 444), (447, 447, 1, 503),
   (453, 453, 1, 452), (454, 454, 1, 452), (456, 456, 1, 455), (457, 457, 1, 455),
   (459, 459, 1, 458), (460, 460, 1, 458), (462, 476, 2, 461), (477, 477, 1, 398),
   (479, 495, 2, 478), (498, 498, 1, 497), (499, 499, 1, 497), (501, 501, 1, 500),
   (505, 543, 2, 504), (547, 563, 2, 546), (572, 572, 1, 571), (575, 576, 1, 11390),
   (578, 578, 1, 577), (583, 591, 2, 582), (592, 592, 1, 11375), (593, 593, 1, 11373),
   (594, 594, 1, 11376), (595, 595, 1, 385), (596, 596, 1, 390), (598, 599, 1, 393),
   (601, 601, 1, 399), (603, 603, 1, 400), (604, 604, 1, 42923), (608, 608, 1, 403),
   (609, 609, 1, 42924), (611, 611, 1, 404), (613, 613, 1, 42893), (614, 614, 1, 42922),
   (616, 616, 1, 407), (617, 617, 1, 406), (618, 618, 1, 42926), (619, 619, 1, 11362),
   (620, 620, 1, 42925), (623, 623, 1, 412), (625, 625, 1, 11374), (626, 626, 1, 413),
   (629, 629, 1, 415), (637, 637, 1, 11364), (640, 640, 1, 422), (642, 642, 1, 42949),
   (643, 643, 1, 425), (647, 647, 1, 42929), (648, 648, 1, 430), (649, 649, 1, 580),
   (650, 651, 1, 433), (652, 652, 1, 581), (658, 658, 1, 439), (669, 669, 1, 42930),
   (670, 670, 1, 42928), (837, 837, 1, 921), (881, 883, 2, 880), (887, 887, 1, 886),
   (891, 893, 1, 1021), (940, 940, 1, 902), (941, 943, 1, 904), (945, 961, 1, 913),
   (962, 962, 1, 931), (963, 971, 1, 931), (972, 972, 1, 908), (973, 974, 1, 910),
   (976, 976, 1, 914), (977, 977, 1, 920), (981, 981, 1, 934), (982, 982, 1, 928),
   (983, 983, 1, 975), (985, 1007, 2, 984), (1008, 1008, 1, 922), (1009, 1009, 1, 929),
   (1010, 1010, 1, 1017), (1011, 1011, 1, 895), (1013, 1013, 1, 917), (1016, 1016, 1, 1015),
   (1019, 1019, 1, 1018), (1072, 1103, 1, 1040), (1104, 1119, 1, 1024), (1121, 1153, 2, 1120),
   (1163, 1215, 2, 1162), (1218, 1230, 2, 1217), (1231, 1231, 1, 1216), (1233, 1327, 2, 1232),
   (1377, 1414, 1, 1329), (4304, 4346, 1, 7312), (4349, 4351, 1, 7357), (5112, 5117, 1, 5104),
   (7296, 7296, 1, 1042), (7297, 7297, 1, 1044), (7298, 7298, 1, 1054), (7299, 7300, 1, 1057),
   (7301, 7301, 1, 1058), (7302, 7302, 1, 1066), (7303, 7303, 1, 1122), (7304, 7304, 1, 42570),
   (7545, 7545, 1, 42877), (7549, 7549, 1, 11363), (7566, 7566, 1, 42950),
   (7681, 7829, 2, 7680), (7835, 7835, 1, 7776), (7841, 7935, 2, 7840), (7936, 7943, 1, 7944),
   (7952, 7957, 1, 7960), (7968, 7975, 1, 7976), (7984, 7991, 1, 7992), (8000, 8005, 1, 8008),
   (8017, 8023, 2, 8025), (8032, 8039, 1, 8040), (8048, 8049, 1, 8122), (8050, 8053, 1, 8136),
   (8054, 8055, 1, 8154), (8056, 8057, 1, 8184), (8058, 8059, 1, 8170), (8060, 8061, 1, 8186),
   (8112, 8113, 1, 8120), (8126, 8126, 1, 921), (8144, 8145, 1, 8152), (8160, 8161, 1, 8168),
   (8165, 8165, 1, 8172), (8526, 8526, 1, 8498), (8560, 8575, 1, 8544), (8580, 8580, 1, 8579),
   (9424, 9449, 1, 9398), (11312, 11359, 1, 11264), (11361, 11361, 1, 11360),
   (11365, 11365, 1, 570), (11366, 11366, 1, 574), (11368, 11372, 2, 11367),
   (11379, 11379, 1, 11378), (11382, 11382, 1, 11381), (11393, 11491, 2, 11392),
   (11500, 11502, 2, 11499), (11507, 11507, 1, 11506), (11520, 11557, 1, 4256),
   (11559, 11559, 1, 4295), (11565, 11565, 1, 4301), (42561, 42605, 2, 42560),
   (42625, 42651, 2, 42624), (42787, 42799, 2, 42786), (42803, 42863, 2, 42802),
   (42874, 42876, 2, 42873), (42879, 42887, 2, 42878), (42892, 42892, 1, 42891),
   (42897, 42899, 2, 42896), (42900, 42900, 1, 42948), (42903, 42921, 2, 42902),
   (42933, 42947, 2, 42932), (42952, 42954, 2, 42951), (42961, 42961, 1, 42960),
   (42967, 42969, 2, 42966), (42998, 42998, 1, 42997), (43859, 43859, 1, 42931),
   (43888, 43967, 1, 5024), (65345, 65370, 1, 65313), (66600, 66639, 1, 66560),
   (66776, 66811, 1, 66736), (66967, 66977, 1, 66928), (66979, 66993, 1, 66940),
   (66995, 67001, 1, 66956), (67003, 67004, 1, 66964), (68800, 68850, 1, 68736),
   (71872, 71903, 1, 71840), (93792, 93823, 1, 93760), (125218, 125251, 1, 125184)]

/-- Upper-case mappings of more than one character. -/
def upperSpecial : List (Nat × List Nat) :=
  [(223, [83, 83]), (329, [700, 78]), (496, [74, 780]), (912, [921, 776, 769]),
   (944, [933, 776, 769]), (1415, [1333, 1362]), (7830, [72, 817]), (7831, [84, 776]),
   (7832, [87, 778]), (7833, [89, 778]), (7834, [65, 702]), (8016, [933, 787]),
   (8018, [933, 787, 768]), (8020, [933, 787, 769]), (8022, [933, 787, 834]),
   (8064, [7944, 921]), (8065, [7945, 921]), (8066, [7946, 921]), (8067, [7947, 921]),
   (8068, [7948, 921]), (8069, [7949, 921]), (8070, [7950, 921]), (8071, [7951, 921]),
   (8072, [7944, 921]), (8073, [7945, 921]), (8074, [7946, 921]), (8075, [7947, 921]),
   (8076, [7948, 921]), (8077, [7949, 921]), (8078, [7950, 921]), (8079, [7951, 921]),
   (8080, [7976, 921]), (8081, [7977, 921]), (8082, [7978, 921]), (8083, [7979, 921]),
   (8084, [7980, 921]), (8085, [7981, 921]), (8086, [7982, 921]), (8087, [7983, 921]),
   (8088, [7976, 921]), (8089, [7977, 921]), (8090, [7978, 921]), (8091, [7979, 921]),
   (8092, [7980, 921]), (8093, [7981, 921]), (8094, [7982, 921]), (8095, [7983, 921]),
   (8096, [8040, 921]), (8097, [8041, 921]), (8098, [8042, 921]), (8099, [8043, 921]),
   (8100, [8044, 921]), (8101, [8045, 921]), (8102, [8046, 921]), (8103, [8047, 921]),
   (8104, [8040, 921]), (8105, [8041, 921]), (8106, [8042, 921]), (8107, [8043, 921]),
   (8108, [8044, 921]), (8109, [8045, 921]), (8110, [8046, 921]), (8111, [8047, 921]),
   (8114, [8122, 921]), (8115, [913, 921]), (8116, [902, 921]), (8118, [913, 834]),
   (8119, [913, 834, 921]), (8124, [913, 921]), (8130, [8138, 921]), (8131, [919, 921]),
   (8132, [905, 921]), (8134, [919, 834]), (8135, [919, 834, 921]), (8140, [919, 921]),
   (8146, [921, 776, 768]), (8147, [921, 776, 769]), (8150, [921, 834]),
   (8151, [921, 776, 834]), (8162, [933, 776, 768]), (8163, [933, 776, 769]),
   (8164, [929, 787]), (8166, [933, 834]), (8167, [933, 776, 834]), (8178, [8186, 921]),
   (8179, [937, 921]), (8180, [911, 921]), (8182, [937, 834]), (8183, [937, 834, 921]),
   (8188, [937, 921]), (64256, [70, 70]), (64257, [70, 73]), (64258, [70, 76]),
   (64259, [70, 70, 73]), (64260, [70, 70, 76]), (64261, [83, 84]), (64262, [83, 84]),
   (64275, [1348, 1350]), (64276, [1348, 1333]), (64277, [1348, 1339]), (64278, [1358, 1350]),
   (64279, [1348, 1341])]

/-- Simple lower-case mappings above U+007F. -/
def lowerStrides : List Stride :=
  [(192, 214, 1, 224), (216, 222, 1, 248), (256, 302, 2, 257), (306, 310, 2, 307),
   (313, 327, 2, 314), (330, 374, 2, 331), (376, 376, 1, 255), (377, 381, 2, 378),
   (385, 385, 1, 595), (386, 388, 2, 387), (390, 390, 1, 596), (391, 391, 1, 392),
   (393, 394, 1, 598), (395, 395, 1, 396), (398, 398, 1, 477), (399, 399, 1, 601),
   (400, 400, 1, 603), (401, 401, 1, 402), (403, 403, 1, 608), (404, 404, 1, 611),
   (406, 406, 1, 617), (407, 407, 1, 616), (408, 408, 1, 409), (412, 412, 1, 623),
   (413, 413, 1, 626), (415, 415, 1, 629), (416, 420, 2, 417), (422, 422, 1, 640),
   (423, 423, 1, 424), (425, 425, 1, 643), (428, 428, 1, 429), (430, 430, 1, 648),
   (431, 431, 1, 432), (433, 434, 1, 650), (435, 437, 2, 436), (439, 439, 1, 658),
   (440, 440, 1, 441), (444, 444, 1, 445), (452, 452, 1, 454), (453, 453, 1, 454),
   (455, 455, 1, 457), (456, 456, 1, 457), (458, 458, 1, 460), (459, 475, 2, 460),
   (478, 494, 2, 479), (497, 497, 1, 499), (498, 500, 2, 499), (502, 502, 1, 405),
   (503, 503, 1, 447), (504, 542, 2, 505), (544, 544, 1, 414), (546, 562, 2, 547),
   (570, 570, 1, 11365), (571, 571, 1, 572), (573, 573, 1, 410), (574, 574, 1, 11366),
   (577, 577, 1, 578), (579, 579, 1, 384), (580, 580, 1, 649), (581, 581, 1, 652),
   (582, 590, 2, 583), (880, 882, 2, 881), (886, 886, 1, 887), (895, 895, 1, 1011),
   (902, 902, 1, 940), (904, 906, 1, 941), (908, 908, 1, 972), (910, 911, 1, 973),
   (913, 929, 1, 945), (931, 939, 1, 963), (975, 975, 1, 983), (984, 1006, 2, 985),
   (1012, 1012, 1, 952), (1015, 1015, 1, 1016), (1017, 1017, 1, 1010), (1018, 1018, 1, 1019),
   (1021, 1023, 1, 891), (1024, 1039, 1, 1104), (1040, 1071, 1, 1072), (1120, 1152, 2, 1121),
   (1162, 1214, 2, 1163), (1216, 1216, 1, 1231), (1217, 1229, 2, 1218), (1232, 1326, 2, 1233),
   (1329, 1366, 1, 1377), (4256, 4293, 1, 11520), (4295, 4295, 1, 11559),
   (4301, 4301, 1, 11565), (5024, 5103, 1, 43888), (5104, 5109, 1, 5112), (7312, 7354, 1, 4304),
   (7357, 7359, 1, 4349), (7680, 7828, 2, 7681), (7838, 7838, 1, 223), (7840, 7934, 2, 7841),
   (7944, 7951, 1, 7936), (7960, 7965, 1, 7952), (7976, 7983, 1, 7968), (7992, 7999, 1, 7984),
   (8008, 8013, 1, 8000), (8025, 8031, 2, 8017), (8040, 8047, 1, 8032), (8072, 8079, 1, 8064),
   (8088, 8095, 1, 8080), (8104, 8111, 1, 8096), (8120, 8121, 1, 8112), (8122, 8123, 1, 8048),
   (8124, 8124, 1, 8115), (8136, 8139, 1, 8050), (8140, 8140, 1, 8131), (8152, 8153, 1, 8144),
   (8154, 8155, 1, 8054), (8168, 8169, 1, 8160), (8170, 8171, 1, 8058), (8172, 8172, 1, 8165),
   (8184, 8185, 1, 8056), (8186, 8187, 1, 8060), (8188, 8188, 1, 8179), (8486, 8486, 1, 969),
   (8490, 8490, 1, 107), (8491, 8491, 1, 229), (8498, 8498, 1, 8526), (8544, 8559, 1, 8560),
   (8579, 8579, 1, 8580), (9398, 9423, 1, 9424), (11264, 11311, 1, 11312),
   (11360, 11360, 1, 11361), (11362, 11362, 1, 619), (11363, 11363, 1, 7549),
   (11364, 11364, 1, 637), (11367, 11371, 2, 11368), (11373, 11373, 1, 593),
   (11374, 11374, 1, 625), (11375, 11375, 1, 592), (11376, 11376, 1, 594),
   (11378, 11378, 1, 11379), (11381, 11381, 1, 11382), (11390, 11391, 1, 575),
   (11392, 11490, 2, 11393), (11499, 11501, 2, 11500), (11506, 11506, 1, 11507),
   (42560, 42604, 2, 42561), (42624, 42650, 2, 42625), (42786, 42798, 2, 42787),
   (42802, 42862, 2, 42803), (42873, 42875, 2, 42874), (42877, 42877, 1, 7545),
   (42878, 42886, 2, 42879), (42891, 42891, 1, 42892), (42893, 42893, 1, 613),
   (42896, 42898, 2, 42897), (42902, 42920, 2, 42903), (42922, 42922, 1, 614),
   (42923, 42923, 1, 604), (42924, 42924, 1, 609), (42925, 42925, 1, 620),
   (42926, 42926, 1, 618), (42928, 42928, 1, 670), (42929, 42929, 1, 647),
   (42930, 42930, 1, 669), (42931, 42931, 1, 43859), (42932, 42946, 2, 42933),
   (42948, 42948, 1, 42900), (42949, 42949, 1, 642), (42950, 42950, 1, 7566),
   (42951, 42953, 2, 42952), (42960, 42960, 1, 42961), (42966, 42968, 2, 42967),
   (42997, 42997, 1, 42998), (65313, 65338, 1, 65345), (66560, 66599, 1, 66600),
   (66736, 66771, 1, 66776), (66928, 66938, 1, 66967), (66940, 66954, 1, 66979),
   (66956, 66962, 1, 66995), (66964, 66965, 1, 67003), (68736, 68786, 1, 68800),
   (71840, 71871, 1, 71872), (93760, 93791, 1, 93792), (125184, 125217, 1, 125218)]

/-- The one lower-case mapping of more than one character, of `İ`. -/
def lowerSpecial : List (Nat × List Nat) := [(304, [105, 775])]

/-- Upper-case characters above U+007F, as `(lo, hi, step)`. -/
def upperCaseRows : List (Nat × Nat × Nat) :=
  [(192, 214, 1), (216, 222, 1), (256, 310, 2), (313, 327, 2), (330, 376, 2), (377, 381, 2),
   (385, 386, 1), (388, 390, 2), (391, 393, 2), (394, 395, 1), (398, 401, 1), (403, 404, 1),
   (406, 408, 1), (412, 413, 1), (415, 416, 1), (418, 422, 2), (423, 425, 2), (428, 430, 2),
   (431, 433, 2), (434, 435, 1), (437, 439, 2), (440, 440, 1), (444, 444, 1), (452, 452, 1),
   (455, 455, 1), (458, 458, 1), (461, 475, 2), (478, 494, 2), (497, 497, 1), (500, 502, 2),
   (503, 504, 1), (506, 562, 2), (570, 571, 1), (573, 574, 1), (577, 579, 2), (580, 582, 1),
   (584, 590, 2), (880, 882, 2), (886, 886, 1), (895, 895, 1), (902, 904, 2), (905, 906, 1),
   (908, 910, 2), (911, 913, 2), (914, 929, 1), (931, 939, 1), (975, 975, 1), (978, 980, 1),
   (984, 1006, 2), (1012, 1012, 1), (1015, 1017, 2), (1018, 1018, 1), (1021, 1071, 1),
   (1120, 1152, 2), (1162, 1216, 2), (1217, 1229, 2), (1232, 1326, 2), (1329, 1366, 1),
   (4256, 4293, 1), (4295, 4295, 1), (4301, 4301, 1), (5024, 5109, 1), (7312, 7354, 1),
   (7357, 7359, 1), (7680, 7828, 2), (7838, 7934, 2), (7944, 7951, 1), (7960, 7965, 1),
   (7976, 7983, 1), (7992, 7999, 1), (8008, 8013, 1), (8025, 8031, 2), (8040, 8047, 1),
   (8120, 8123, 1), (8136, 8139, 1), (8152, 8155, 1), (8168, 8172, 1), (8184, 8187, 1),
   (8450, 8450, 1), (8455, 8455, 1), (8459, 8461, 1), (8464, 8466, 1), (8469, 8469, 1),
   (8473, 8477, 1), (8484, 8490, 2), (8491, 8493, 1), (8496, 8499, 1), (8510, 8511, 1),
   (8517, 8517, 1), (8544, 8559, 1), (8579, 8579, 1), (9398, 9423, 1), (11264, 11311, 1),
   (11360, 11362, 2), (11363, 11364, 1), (11367, 11373, 2), (11374, 11376, 1),
   (11378, 11378, 1), (11381, 11381, 1), (11390, 11392, 1), (11394, 11490, 2),
   (11499, 11501, 2), (11506, 11506, 1), (42560, 42604, 2), (42624, 42650, 2),
   (42786, 42798, 2), (42802, 42862, 2), (42873, 42877, 2), (42878, 42886, 2),
   (42891, 42893, 2), (42896, 42898, 2), (42902, 42922, 2), (42923, 42926, 1),
   (42928, 42932, 1), (42934, 42948, 2), (42949, 42951, 1), (42953, 42953, 1),
   (42960, 42960, 1), (42966, 42968, 2), (42997, 42997, 1), (65313, 65338, 1),
   (66560, 66599, 1), (66736, 66771, 1), (66928, 66938, 1), (66940, 66954, 1),
   (66956, 66962, 1), (66964, 66965, 1), (68736, 68786, 1), (71840, 71871, 1),
   (93760, 93791, 1), (119808, 119833, 1), (119860, 119885, 1), (119912, 119937, 1),
   (119964, 119966, 2), (119967, 119967, 1), (119970, 119970, 1), (119973, 119974, 1),
   (119977, 119980, 1), (119982, 119989, 1), (120016, 120041, 1), (120068, 120069, 1),
   (120071, 120074, 1), (120077, 120084, 1), (120086, 120092, 1), (120120, 120121, 1),
   (120123, 120126, 1), (120128, 120132, 1), (120134, 120134, 1), (120138, 120144, 1),
   (120172, 120197, 1), (120224, 120249, 1), (120276, 120301, 1), (120328, 120353, 1),
   (120380, 120405, 1), (120432, 120457, 1), (120488, 120512, 1), (120546, 120570, 1),
   (120604, 120628, 1), (120662, 120686, 1), (120720, 120744, 1), (120778, 120778, 1),
   (125184, 125217, 1), (127280, 127305, 1), (127312, 127337, 1), (127344, 127369, 1)]

/-- The zero of every run of ten decimal digits. -/
def decimalZeros : List Nat :=
  [48, 1632, 1776, 1984, 2406, 2534, 2662, 2790, 2918, 3046, 3174, 3302, 3430, 3558, 3664, 3792,
   3872, 4160, 4240, 6112, 6160, 6470, 6608, 6784, 6800, 6992, 7088, 7232, 7248, 42528, 43216,
   43264, 43472, 43504, 43600, 44016, 65296, 66720, 68912, 69734, 69872, 69942, 70096, 70384,
   70736, 70864, 71248, 71360, 71472, 71904, 72016, 72784, 73040, 73120, 73552, 92768, 92864,
   93008, 120782, 120792, 120802, 120812, 120822, 123200, 123632, 124144, 125264, 130032]

/-- Digits that are not decimal digits: superscripts, subscripts, circled numbers and the like.
`str.isdigit` accepts them and `int` refuses them. -/
def nonDecimalDigits : List (Nat × Nat) :=
  [(178, 179), (185, 185), (4969, 4977), (6618, 6618), (8304, 8304), (8308, 8313), (8320, 8329),
   (9312, 9320), (9332, 9340), (9352, 9360), (9450, 9450), (9461, 9469), (9471, 9471),
   (10102, 10110), (10112, 10120), (10122, 10130), (68160, 68163), (69216, 69224),
   (69714, 69722), (127232, 127242)]

/-- White space, as `str.split` and `str.strip` see it. -/
def spaceRanges : List (Nat × Nat) :=
  [(9, 13), (28, 32), (133, 133), (160, 160), (5760, 5760), (8192, 8202), (8232, 8233),
   (8239, 8239), (8287, 8287), (12288, 12288)]

/-- The characters the search for the end of a word passes over. -/
def caseIgnorableRanges : List (Nat × Nat) :=
  [(39, 39), (46, 46), (58, 58), (94, 94), (96, 96), (168, 168), (173, 173), (175, 175),
   (180, 180), (183, 184), (688, 879), (884, 885), (890, 890), (900, 901), (903, 903),
   (1155, 1161), (1369, 1369), (1375, 1375), (1425, 1469), (1471, 1471), (1473, 1474),
   (1476, 1477), (1479, 1479), (1524, 1524), (1536, 1541), (1552, 1562), (1564, 1564),
   (1600, 1600), (1611, 1631), (1648, 1648), (1750, 1757), (1759, 1768), (1770, 1773),
   (1807, 1807), (1809, 1809), (1840, 1866), (1958, 1968), (2027, 2037), (2042, 2042),
   (2045, 2045), (2070, 2093), (2137, 2139), (2184, 2184), (2192, 2193), (2200, 2207),
   (2249, 2306), (2362, 2362), (2364, 2364), (2369, 2376), (2381, 2381), (2385, 2391),
   (2402, 2403), (2417, 2417), (2433, 2433), (2492, 2492), (2497, 2500), (2509, 2509),
   (2530, 2531), (2558, 2558), (2561, 2562), (2620, 2620), (2625, 2626), (2631, 2632),
   (2635, 2637), (2641, 2641), (2672, 2673), (2677, 2677), (2689, 2690), (2748, 2748),
   (2753, 2757), (2759, 2760), (2765, 2765), (2786, 2787), (2810, 2815), (2817, 2817),
   (2876, 2876), (2879, 2879), (2881, 2884), (2893, 2893), (2901, 2902), (2914, 2915),
   (2946, 2946), (3008, 3008), (3021, 3021), (3072, 3072), (3076, 3076), (3132, 3132),
   (3134, 3136), (3142, 3144), (3146, 3149), (3157, 3158), (3170, 3171), (3201, 3201),
   (3260, 3260), (3263, 3263), (3270, 3270), (3276, 3277), (3298, 3299), (3328, 3329),
   (3387, 3388), (3393, 3396), (3405, 3405), (3426, 3427), (3457, 3457), (3530, 3530),
   (3538, 3540), (3542, 3542), (3633, 3633), (3636, 3642), (3654, 3662), (3761, 3761),
   (3764, 3772), (3782, 3782), (3784, 3790), (3864, 3865), (3893, 3893), (3895, 3895),
   (3897, 3897), (3953, 3966), (3968, 3972), (3974, 3975), (3981, 3991), (3993, 4028),
   (4038, 4038), (4141, 4144), (4146, 4151), (4153, 4154), (4157, 4158), (4184, 4185),
   (4190, 4192), (4209, 4212), (4226, 4226), (4229, 4230), (4237, 4237), (4253, 4253),
   (4348, 4348), (4957, 4959), (5906, 5908), (5938, 5939), (5970, 5971), (6002, 6003),
   (6068, 6069), (6071, 6077), (6086, 6086), (6089, 6099), (6103, 6103), (6109, 6109),
   (6155, 6159), (6211, 6211), (6277, 6278), (6313, 6313), (6432, 6434), (6439, 6440),
   (6450, 6450), (6457, 6459), (6679, 6680), (6683, 6683), (6742, 6742), (6744, 6750),
   (6752, 6752), (6754, 6754), (6757, 6764), (6771, 6780), (6783, 6783), (6823, 6823),
   (6832, 6862), (6912, 6915), (6964, 6964), (6966, 6970), (6972, 6972), (6978, 6978),
   (7019, 7027), (7040, 7041), (7074, 7077), (7080, 7081), (7083, 7085), (7142, 7142),
   (7144, 7145), (7149, 7149), (7151, 7153), (7212, 7219), (7222, 7223), (7288, 7293),
   (7376, 7378), (7380, 7392), (7394, 7400), (7405, 7405), (7412, 7412), (7416, 7417),
   (7468, 7530), (7544, 7544), (7579, 7679), (8125, 8125), (8127, 8129), (8141, 8143),
   (8157, 8159), (8173, 8175), (8189, 8190), (8203, 8207), (8216, 8217), (8228, 8228),
   (8231, 8231), (8234, 8238), (8288, 8292), (8294, 8303), (8305, 8305), (8319, 8319),
   (8336, 8348), (8400, 8432), (11388, 11389), (11503, 11505), (11631, 11631), (11647, 11647),
   (11744, 11775), (11823, 11823), (12293, 12293), (12330, 12333), (12337, 12341),
   (12347, 12347), (12441, 12446), (12540, 12542), (40981, 40981), (42232, 42237),
   (42508, 42508), (42607, 42610), (42612, 42621), (42623, 42623), (42652, 42655),
   (42736, 42737), (42752, 42785), (42864, 42864), (42888, 42890), (42994, 42996),
   (43000, 43001), (43010, 43010), (43014, 43014), (43019, 43019), (43045, 43046),
   (43052, 43052), (43204, 43205), (43232, 43249), (43263, 43263), (43302, 43309),
   (43335, 43345), (43392, 43394), (43443, 43443), (43446, 43449), (43452, 43453),
   (43471, 43471), (43493, 43494), (43561, 43566), (43569, 43570), (43573, 43574),
   (43587, 43587), (43596, 43596), (43632, 43632), (43644, 43644), (43696, 43696),
   (43698, 43700), (43703, 43704), (43710, 43711), (43713, 43713), (43741, 43741),
   (43756, 43757), (43763, 43764), (43766, 43766), (43867, 43871), (43881, 43883),
   (44005, 44005), (44008, 44008), (44013, 44013), (64286, 64286), (64434, 64450),
   (65024, 65039), (65043, 65043), (65056, 65071), (65106, 65106), (65109, 65109),
   (65279, 65279), (65287, 65287), (65294, 65294), (65306, 65306), (65342, 65342),
   (65344, 65344), (65392, 65392), (65438, 65439), (65507, 65507), (65529, 65531),
   (66045, 66045), (66272, 66272), (66422, 66426), (67456, 67461), (67463, 67504),
   (67506, 67514), (68097, 68099), (68101, 68102), (68108, 68111), (68152, 68154),
   (68159, 68159), (68325, 68326), (68900, 68903), (69291, 69292), (69373, 69375),
   (69446, 69456), (69506, 69509), (69633, 69633), (69688, 69702), (69744, 69744),
   (69747, 69748), (69759, 69761), (69811, 69814), (69817, 69818), (69821, 69821),
   (69826, 69826), (69837, 69837), (69888, 69890), (69927, 69931), (69933, 69940),
   (70003, 70003), (70016, 70017), (70070, 70078), (70089, 70092), (70095, 70095),
   (70191, 70193), (70196, 70196), (70198, 70199), (70206, 70206), (70209, 70209),
   (70367, 70367), (70371, 70378), (70400, 70401), (70459, 70460), (70464, 70464),
   (70502, 70508), (70512, 70516), (70712, 70719), (70722, 70724), (70726, 70726),
   (70750, 70750), (70835, 70840), (70842, 70842), (70847, 70848), (70850, 70851),
   (71090, 71093), (71100, 71101), (71103, 71104), (71132, 71133), (71219, 71226),
   (71229, 71229), (71231, 71232), (71339, 71339), (71341, 71341), (71344, 71349),
   (71351, 71351), (71453, 71455), (71458, 71461), (71463, 71467), (71727, 71735),
   (71737, 71738), (71995, 71996), (71998, 71998), (72003, 72003), (72148, 72151),
   (72154, 72155), (72160, 72160), (72193, 72202), (72243, 72248), (72251, 72254),
   (72263, 72263), (72273, 72278), (72281, 72283), (72330, 72342), (72344, 72345),
   (72752, 72758), (72760, 72765), (72767, 72767), (72850, 72871), (72874, 72880),
   (72882, 72883), (72885, 72886), (73009, 73014), (73018, 73018), (73020, 73021),
   (73023, 73029), (73031, 73031), (73104, 73105), (73109, 73109), (73111, 73111),
   (73459, 73460), (73472, 73473), (73526, 73530), (73536, 73536), (73538, 73538),
   (78896, 78912), (78919, 78933), (92912, 92916), (92976, 92982), (92992, 92995),
   (94031, 94031), (94095, 94111), (94176, 94177), (94179, 94180), (110576, 110579),
   (110581, 110587), (110589, 110590), (113821, 113822), (113824, 113827), (118528, 118573),
   (118576, 118598), (119143, 119145), (119155, 119170), (119173, 119179), (119210, 119213),
   (119362, 119364), (121344, 121398), (121403, 121452), (121461, 121461), (121476, 121476),
   (121499, 121503), (121505, 121519), (122880, 122886), (122888, 122904), (122907, 122913),
   (122915, 122916), (122918, 122922), (122928, 122989), (123023, 123023), (123184, 123197),
   (123566, 123566), (123628, 123631), (124139, 124143), (125136, 125142), (125252, 125259),
   (127995, 127999), (917505, 917505), (917536, 917631), (917760, 917999)]

/-- The characters that have case, but for those that are passed over. -/
def casedRanges : List (Nat × Nat) :=
  [(65, 90), (97, 122), (170, 170), (181, 181), (186, 186), (192, 214), (216, 246), (248, 442),
   (444, 447), (452, 659), (661, 687), (880, 883), (886, 887), (891, 893), (895, 895),
   (902, 902), (904, 906), (908, 908), (910, 929), (931, 1013), (1015, 1153), (1162, 1327),
   (1329, 1366), (1376, 1416), (4256, 4293), (4295, 4295), (4301, 4301), (4304, 4346),
   (4349, 4351), (5024, 5109), (5112, 5117), (7296, 7304), (7312, 7354), (7357, 7359),
   (7424, 7467), (7531, 7543), (7545, 7578), (7680, 7957), (7960, 7965), (7968, 8005),
   (8008, 8013), (8016, 8023), (8025, 8025), (8027, 8027), (8029, 8029), (8031, 8061),
   (8064, 8116), (8118, 8124), (8126, 8126), (8130, 8132), (8134, 8140), (8144, 8147),
   (8150, 8155), (8160, 8172), (8178, 8180), (8182, 8188), (8450, 8450), (8455, 8455),
   (8458, 8467), (8469, 8469), (8473, 8477), (8484, 8484), (8486, 8486), (8488, 8488),
   (8490, 8493), (8495, 8500), (8505, 8505), (8508, 8511), (8517, 8521), (8526, 8526),
   (8544, 8575), (8579, 8580), (9398, 9449), (11264, 11387), (11390, 11492), (11499, 11502),
   (11506, 11507), (11520, 11557), (11559, 11559), (11565, 11565), (42560, 42605),
   (42624, 42651), (42786, 42863), (42865, 42887), (42891, 42894), (42896, 42954),
   (42960, 42961), (42963, 42963), (42965, 42969), (42997, 42998), (43002, 43002),
   (43824, 43866), (43872, 43880), (43888, 43967), (64256, 64262), (64275, 64279),
   (65313, 65338), (65345, 65370), (66560, 66639), (66736, 66771), (66776, 66811),
   (66928, 66938), (66940, 66954), (66956, 66962), (66964, 66965), (66967, 66977),
   (66979, 66993), (66995, 67001), (67003, 67004), (68736, 68786), (68800, 68850),
   (71840, 71903), (93760, 93823), (119808, 119892), (119894, 119964), (119966, 119967),
   (119970, 119970), (119973, 119974), (119977, 119980), (119982, 119993), (119995, 119995),
   (119997, 120003), (120005, 120069), (120071, 120074), (120077, 120084), (120086, 120092),
   (120094, 120121), (120123, 120126), (120128, 120132), (120134, 120134), (120138, 120144),
   (120146, 120485), (120488, 120512), (120514, 120538), (120540, 120570), (120572, 120596),
   (120598, 120628), (120630, 120654), (120656, 120686), (120688, 120712), (120714, 120744),
   (120746, 120770), (120772, 120779), (122624, 122633), (122635, 122654), (122661, 122666),
   (125184, 125251), (127280, 127305), (127312, 127337), (127344, 127369)]

/-- The upper-case form of one character. -/
def upperChar (c : Char) : List Char :=
  if c.toNat < 128 then
    [if 97 ≤ c.toNat ∧ c.toNat ≤ 122 then Char.ofNat (c.toNat - 32) else c]
  else match upperSpecial.lookup c.toNat with
    | some image => image.map Char.ofNat
    | none => [Char.ofNat (mapThrough upperStrides c.toNat)]

/-- The lower-case form of one character. -/
def lowerChar (c : Char) : List Char :=
  if c.toNat < 128 then
    [if 65 ≤ c.toNat ∧ c.toNat ≤ 90 then Char.ofNat (c.toNat + 32) else c]
  else match lowerSpecial.lookup c.toNat with
    | some image => image.map Char.ofNat
    | none => [Char.ofNat (mapThrough lowerStrides c.toNat)]

/-- The character is one of a list of ranges. -/
def inRanges (ranges : List (Nat × Nat)) (c : Char) : Bool :=
  ranges.any fun r => r.1 ≤ c.toNat && c.toNat ≤ r.2

/-- `_PyUnicode_IsCaseIgnorable`. -/
def isCaseIgnorable (c : Char) : Bool := inRanges caseIgnorableRanges c

/-- `_PyUnicode_IsCased`, of a character that is not passed over. -/
def isCased (c : Char) : Bool := inRanges casedRanges c

/-- `c.isupper()`, for a string of one character. -/
def isUpperChar (c : Char) : Bool :=
  if c.toNat < 128 then 65 ≤ c.toNat && c.toNat ≤ 90
  else upperCaseRows.any fun r =>
    r.1 ≤ c.toNat && c.toNat ≤ r.2.1 && (c.toNat - r.1) % r.2.2 == 0

/-- White space. -/
def isSpaceChar (c : Char) : Bool :=
  spaceRanges.any fun r => r.1 ≤ c.toNat && c.toNat ≤ r.2

/-- The value of a decimal digit, in any script. -/
def decimalValue (c : Char) : Option Nat :=
  (decimalZeros.find? fun z => z ≤ c.toNat && c.toNat ≤ z + 9).map (c.toNat - ·)

/-- `c.isdigit()`, for a string of one character. -/
def isDigitChar (c : Char) : Bool :=
  (decimalValue c).isSome || nonDecimalDigits.any fun r => r.1 ≤ c.toNat && c.toNat ≤ r.2

end Py
end SecureMail
